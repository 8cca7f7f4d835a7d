/-
  When FMOVEM moves one block.

  * `probe`: a state with different numbers in all registers;
  * `pc_loadEach`, `storeEach_indirect`, …: operands that do not advance, or whose extension words
    are read again for every register;
  * `storeBlock_reverse_ne`, `loadBlock_reverse_ne`: the order of the registers tells;
  * `oneBlock_iff`: exactly the instructions in step move one block.
-/
import CuteMac.Fpu.MoveMultiple

namespace CuteMac.Fpu

open ByteMemory Core M68kiCpu

/-! ## A state to tell the registers by -/

/-- The registers are all different, and none is zero. -/
def probe (ir : UInt16) (m : Memory) : M68kiCpu where
  d := fun _ => 0
  a := fun _ => 0x8000
  pc := 0x1000
  ir := ir
  fp := fun r => ⟨0x0101 * UInt16.ofNat (r.val + 1), 0⟩
  fpcr := 0x01010101
  fpsr := 0x02020202
  fpiar := 0x03030303
  fpuModel := .m68882
  memory := m

/-- A byte at one address. -/
def marked (address : UInt32) : Memory := Function.update (fun _ => 0) address 1

section
variable {s t : M68kiCpu} {ea : UInt16} {address di : UInt32} {p : UInt32 × M68kiCpu}
  {a l : MovedRegister} {mid regs : List MovedRegister}

theorem bytes_probe {ir : UInt16} {m : Memory} {r q : MovedRegister} (hsize : r.size = q.size)
    (h : r.bytes (probe ir m) = q.bytes (probe ir m)) : r = q := by
  have hdata : ∀ f g : Fin 8, floatBytes ⟨0x0101 * UInt16.ofNat (f.val + 1), 0⟩
      = floatBytes ⟨0x0101 * UInt16.ofNat (g.val + 1), 0⟩ → f = g := by decide
  cases r with
  | data f =>
    cases q with
    | data g => exact congrArg MovedRegister.data (hdata f g h)
    | control c => exact absurd hsize (by decide : (12 : Nat) ≠ 4)
  | control c =>
    cases q with
    | data g => exact absurd hsize (by decide : (4 : Nat) ≠ 12)
    | control c' =>
      have hprobe : ∀ c, MovedRegister.bytes (probe ir m) (.control c)
          = MovedRegister.bytes (probe 0 fun _ => 0) (.control c) := by
        intro c
        cases c <;> rfl
      rw [hprobe, hprobe] at h
      cases c <;> cases c'
      all_goals first | rfl | exact absurd h (by decide)

theorem operand_known (hk : eaKnown [2, 3, 4, 5, 6] [1, 2, 3] ea) (size : Nat) (s : M68kiCpu) :
    ∃ p, s.blockAddress size ea = some p := by
  unfold blockAddress eaAddress
  dsimp only
  rcases hk with hm | ⟨h7, he⟩
  · rw [if_pos hm]
    simp only [List.mem_cons, List.not_mem_nil, or_false] at hm
    rcases hm with h | h | h | h | h <;> rw [h] <;> exact ⟨_, rfl⟩
  · rw [h7, if_neg (by decide), if_pos ⟨rfl, he⟩]
    simp only [List.mem_cons, List.not_mem_nil, or_false] at he
    rcases he with h | h | h <;> rw [h] <;> exact ⟨_, rfl⟩

/-! ## Extension words -/

/-- The bytes of the extension words of an operand, where they are all zero. -/
def wordsLength (ea : UInt16) : UInt32 :=
  if eaMode ea = 7 then (if (eaReg ea).val = 1 then 4 else 2)
  else if eaMode ea = 5 ∨ eaMode ea = 6 then 2 else 0

theorem read16_zero (hzero : s.memory = fun _ => 0) (a : UInt32) : s.read16 a = 0 := by
  have hbytes : take s.memory a 2 = [0, 0] := by
    rw [hzero]
    rfl
  unfold read16
  rw [hbytes]
  decide

theorem getEaIx_zero (hzero : s.memory = fun _ => 0) (an : UInt32) :
    (s.getEaIx an).2 = { s with pc := s.pc + 2 } := by
  have hword : s.readImm16.1 &&& 0x0100 = 0 := by
    show s.read16 s.pc &&& 0x0100 = 0
    rw [read16_zero hzero]
    rfl
  unfold getEaIx
  dsimp only
  rw [if_pos hword]
  rfl

theorem blockAddress_zero (hzero : s.memory = fun _ => 0)
    (hk : eaKnown [2, 3, 4, 5, 6] [1, 2, 3] ea) {size : Nat} (hp : s.blockAddress size ea = some p) :
    p.2.pc = s.pc + wordsLength ea := by
  unfold blockAddress eaAddress at hp
  dsimp only at hp
  unfold wordsLength
  rcases hk with hm | ⟨h7, he⟩
  · rw [if_pos hm] at hp
    simp only [List.mem_cons, List.not_mem_nil, or_false] at hm
    rcases hm with h | h | h | h | h
    all_goals
      rw [h] at hp
      rw [h]
      obtain rfl := Option.some.inj hp
    · exact (UInt32.add_zero _).symm
    · exact (UInt32.add_zero _).symm
    · exact (UInt32.add_zero _).symm
    · rfl
    · rw [getEaIx_zero hzero]
      rfl
  · rw [h7, if_neg (by decide), if_pos ⟨rfl, he⟩] at hp
    rw [h7, if_pos rfl]
    simp only [List.mem_cons, List.not_mem_nil, or_false] at he
    rcases he with h | h | h
    all_goals
      rw [h] at hp
      rw [h]
      obtain rfl := Option.some.inj hp
    · exact UInt32.add_assoc ..
    · rfl
    · rw [getEaIx_zero hzero]
      rfl

theorem load_rest (s : M68kiCpu) (address : UInt32) (r : MovedRegister) :
    (r.load s address).pc = s.pc ∧ (r.load s address).reports = s.reports := by
  cases r with
  | data r => exact ⟨rfl, rfl⟩
  | control r => cases r <;> exact ⟨rfl, rfl⟩

theorem loadBlock_rest (regs : List MovedRegister) : ∀ (s : M68kiCpu) (address : UInt32),
    (s.loadBlock address regs).pc = s.pc ∧ (s.loadBlock address regs).reports = s.reports := by
  induction regs with
  | nil => exact fun _ _ => ⟨rfl, rfl⟩
  | cons r rs ih =>
    intro s address
    obtain ⟨hpc, hreports⟩ := ih (r.load s address) (address + UInt32.ofNat r.size)
    obtain ⟨hpc', hreports'⟩ := load_rest s address r
    exact ⟨hpc.trans hpc', hreports.trans hreports'⟩

theorem reports_operand {size : Nat} (hp : s.blockAddress size ea = some p) :
    p.2.reports = s.reports ∧ p.2.memory = s.memory := by
  obtain ⟨a, pc, hmoved⟩ := moved_eaAddress hp
  rw [hmoved]
  exact ⟨rfl, rfl⟩

/-- Every register of a load has extension words of its own. -/
theorem pc_loadEach (hk : eaKnown [2, 3, 4, 5, 6] [1, 2, 3] ea) (regs : List MovedRegister) :
    ∀ (s : M68kiCpu) (di : UInt32), (∀ r ∈ regs, r.LoadKnown ea) → s.memory = (fun _ => 0) →
      (s.loadEach ea di regs).pc = s.pc + wordsLength ea * UInt32.ofNat regs.length ∧
        (s.loadEach ea di regs).reports = s.reports := by
  induction regs with
  | nil =>
    intro s di _ _
    refine ⟨?_, rfl⟩
    show s.pc = s.pc + wordsLength ea * 0
    rw [UInt32.mul_zero, UInt32.add_zero]
  | cons r rs ih =>
    intro s di hload hzero
    obtain ⟨p, hp⟩ := operand_known hk r.size s
    have hfirst := loadOne_block (hload r List.mem_cons_self) hp di
    obtain ⟨hreports, hmemory⟩ := reports_operand hp
    obtain ⟨hpc', hreports'⟩ := loadBlock_rest [r] p.2 p.1
    have hzero' : (p.2.loadBlock p.1 [r]).memory = fun _ => 0 := by
      rw [loadBlock_memory, hmemory, hzero]
    obtain ⟨hpc, hrest⟩ := ih (p.2.loadBlock p.1 [r]) (nextDiModeEa ea di)
      (fun q hq => hload q (List.mem_cons_of_mem r hq)) hzero'
    rw [loadEach, hfirst, hpc, hrest, hpc', hreports', blockAddress_zero hzero hk hp, hreports]
    refine ⟨?_, rfl⟩
    rw [List.length_cons, UInt32.add_assoc, Nat.add_comm rs.length 1, UInt32.ofNat_add, UInt32.mul_add]
    show _ + (wordsLength ea + _) = _ + (wordsLength ea * 1 + _)
    rw [UInt32.mul_one]

theorem blockAddress_long (h7 : eaMode ea = 7) (h1 : (eaReg ea).val = 1) (size : Nat) :
    ∃ address, s.blockAddress size ea = some (address, { s with pc := s.pc + 2 + 2 }) := by
  unfold blockAddress eaAddress
  rw [h7]
  dsimp only
  rw [h1]
  exact ⟨_, rfl⟩

/-- Every register of a store has an address of its own. -/
theorem pc_storeEach (h7 : eaMode ea = 7) (h1 : (eaReg ea).val = 1) (regs : List MovedRegister) :
    ∀ (s : M68kiCpu) (di : UInt32),
      (s.storeEach ea di regs).pc = s.pc + 4 * UInt32.ofNat regs.length ∧
        (s.storeEach ea di regs).reports = s.reports := by
  have hknown : ∀ r : MovedRegister, r.StoreKnown ea := by
    intro r
    cases r with
    | data r => exact Or.inr ⟨h7, by rw [h1]; decide⟩
    | control r => exact Or.inr ⟨h7, by rw [h1]; decide⟩
  induction regs with
  | nil => exact fun s _ => ⟨(UInt32.add_zero _).symm, rfl⟩
  | cons r rs ih =>
    intro s di
    obtain ⟨address, hp⟩ := blockAddress_long (s := s) h7 h1 r.size
    have hfirst := storeOne_block (hknown r) hp di
    obtain ⟨hpc, hreports⟩ := ih (s.storeOne ea di r) (nextDiModeEa ea di)
    rw [hfirst] at hpc hreports
    rw [storeEach, hfirst, hpc, hreports]
    refine ⟨?_, rfl⟩
    show s.pc + 2 + 2 + 4 * UInt32.ofNat rs.length = s.pc + 4 * UInt32.ofNat (rs.length + 1)
    rw [UInt32.add_assoc s.pc, UInt32.add_assoc, Nat.add_comm rs.length 1, UInt32.ofNat_add,
      UInt32.mul_add]
    rfl

/-! ## One place for all registers -/

theorem storeEach_indirect (hm : eaMode ea = 2) {b : UInt32} (rs : List (Fin 8)) :
    ∀ (s : M68kiCpu) (di : UInt32), 12 ≤ (b - s.a (eaReg ea)).toNat →
      (s.storeEach ea di (rs.map .data)).memory b = s.memory b ∧
        (s.storeEach ea di (rs.map .data)).reports = s.reports := by
  have hin : eaMode ea ∈ [2, 3, 4] := by
    rw [hm]
    decide
  induction rs with
  | nil => exact fun _ _ _ => ⟨rfl, rfl⟩
  | cons r rs ih =>
    intro s di hb
    have hfirst := storeOne_block (storeKnown_of_moving hin (.data r))
      (blockAddress_indirect (s := s) hm) di
    have hlen : (blockBytes s [.data r]).length = 12 := length_blockBytes s [.data r]
    have hmemory : (s.storeBlock (s.a (eaReg ea)) [.data r]).memory b = s.memory b := by
      show put s.memory (s.a (eaReg ea)) (blockBytes s [.data r]) b = s.memory b
      rw [put_apply (by rw [hlen]; decide), List.getElem?_eq_none (by rw [hlen]; exact hb)]
      rfl
    obtain ⟨hrest, hreports⟩ := ih (s.storeOne ea di (.data r)) (nextDiModeEa ea di)
      (by rw [hfirst]; exact hb)
    rw [hfirst] at hrest hreports
    rw [List.map_cons, storeEach, hfirst, hrest, hreports]
    exact ⟨hmemory, rfl⟩

/-- All registers are loaded from the same place. -/
theorem loadEach_indirect (hm : eaMode ea = 2) (x : Fin 8) (rs : List (Fin 8)) :
    ∀ (s : M68kiCpu) (di : UInt32),
      ((s.loadEach ea di (rs.map .data)).fp x = s.loadExtendedFloat80 (s.a (eaReg ea)) ∨
          (s.loadEach ea di (rs.map .data)).fp x = s.fp x) ∧
        (s.loadEach ea di (rs.map .data)).reports = s.reports := by
  have hin : eaMode ea ∈ [2, 3, 4] := by
    rw [hm]
    decide
  induction rs with
  | nil => exact fun _ _ => ⟨Or.inr rfl, rfl⟩
  | cons r rs ih =>
    intro s di
    have hfirst : s.loadOne ea di (.data r) = s.setFp r (s.loadExtendedFloat80 (s.a (eaReg ea))) :=
      loadOne_block (loadKnown_of_moving hin (.data r)) (blockAddress_indirect (s := s) hm) di
    obtain ⟨hx, hreports⟩ := ih (s.loadOne ea di (.data r)) (nextDiModeEa ea di)
    rw [List.map_cons, loadEach]
    rw [hfirst] at hx hreports ⊢
    refine ⟨?_, hreports⟩
    rcases hx with hx | hx
    · exact Or.inl hx
    · by_cases hxr : x = r
      · subst hxr
        exact Or.inl (hx.trans (Function.update_self ..))
      · exact Or.inr (hx.trans (Function.update_of_ne hxr _ _))

/-! ## The order of a block -/

/-- A list of several registers has a first and a last one. -/
theorem exists_ends (hmany : 1 < regs.length) : ∃ a mid l, regs = a :: (mid ++ [l]) := by
  match regs with
  | [] => exact absurd hmany (by decide)
  | [_] => exact absurd hmany (by simp)
  | a :: b :: rest =>
    obtain ⟨mid, l, hl⟩ := (List.eq_nil_or_concat (b :: rest)).resolve_left (List.cons_ne_nil _ _)
    exact ⟨a, mid, l, by rw [hl, List.concat_eq_append]⟩

theorem reverse_ends : (a :: (mid ++ [l])).reverse = l :: (mid.reverse ++ [a]) := by
  rw [List.reverse_cons, List.reverse_append, List.reverse_singleton]
  rfl

/-- The first register of a block is at its address. -/
theorem take_first (s : M68kiCpu) (address : UInt32) (hsize : blockSize (a :: regs) ≤ 2 ^ 32) :
    take (s.storeBlock address (a :: regs)).memory address a.size = a.bytes s := by
  have h := take_storeBlock s address hsize
  rw [blockSize_cons, take_add, blockBytes, List.flatMap_cons] at h
  exact (List.append_inj h (by rw [length_take, length_bytes])).1

theorem storeBlock_reverse_ne {n : Nat} (hmany : 1 < regs.length) (hnodup : regs.Nodup)
    (hsame : ∀ r ∈ regs, r.size = n) (hsize : blockSize regs ≤ 2 ^ 32)
    (hbytes : ∀ r ∈ regs, ∀ q ∈ regs, r.bytes s = q.bytes s → r = q) (address : UInt32) :
    s.storeBlock address regs.reverse ≠ s.storeBlock address regs := by
  intro heq
  obtain ⟨a, mid, l, rfl⟩ := exists_ends hmany
  have hl : l ∈ a :: (mid ++ [l]) :=
    List.mem_cons_of_mem a (List.mem_append_right mid (List.mem_singleton_self l))
  have hfirst := take_first s address hsize
  rw [← heq, reverse_ends] at hfirst
  have hsize' : blockSize (l :: (mid.reverse ++ [a])) ≤ 2 ^ 32 := by
    rw [← reverse_ends, blockSize_reverse]
    exact hsize
  have hlast := take_first s address hsize'
  rw [hsame l hl, ← hsame a List.mem_cons_self, hfirst] at hlast
  have hal := hbytes a List.mem_cons_self l hl hlast
  rw [hal] at hnodup
  exact (List.nodup_cons.1 hnodup).1 (List.mem_append_right mid (List.mem_singleton_self l))

/-- A slot above the mark is empty. -/
theorem load_marked_ne {k : Nat} (hm : t.memory = marked address) (hk : 4 ≤ k ∧ k ≤ 2 ^ 16)
    (r : MovedRegister) {u : M68kiCpu} (hu : r.Kept (r.load t address) u) :
    ¬ r.Kept (r.load t (address + UInt32.ofNat k)) u := by
  have hat : marked address (address + 0) = 1 := by
    rw [UInt32.add_zero]
    exact Function.update_self ..
  have hoff : ∀ j : Nat, 0 < j → j < 2 ^ 32 → marked address (address + UInt32.ofNat j) = 0 := by
    intro j hpos hlt
    refine Function.update_of_ne (fun h => ?_) _ _
    have hj := congrArg UInt32.toNat h
    have ha := address.toNat_lt
    rw [UInt32.toNat_add, UInt32.toNat_ofNat', Nat.mod_eq_of_lt hlt] at hj
    omega
  have habove : ∀ j : Nat, j < 4 → marked address (address + UInt32.ofNat k + UInt32.ofNat j) = 0 := by
    intro j hj
    rw [UInt32.add_assoc, ← UInt32.ofNat_add]
    exact hoff (k + j) (by omega) (by omega)
  intro hu'
  cases r with
  | data r =>
    have hself : ∀ x, (t.setFp r x).fp r = x := by
      intro x
      show Function.update t.fp r x r = x
      rw [Function.update_self]
    have hlow : u.fp r = t.loadExtendedFloat80 address := Eq.trans hu (hself _)
    have hhigh : u.fp r = t.loadExtendedFloat80 (address + UInt32.ofNat k) := Eq.trans hu' (hself _)
    have hword := congrArg Floatx80.high (hlow.symm.trans hhigh)
    have h1 : take t.memory address 2 = [1, 0] := by
      rw [hm]
      exact congrArg₂ (fun x y => [x, y]) hat (hoff 1 (by decide) (by decide))
    have h2 : take t.memory (address + UInt32.ofNat k) 2 = [0, 0] := by
      rw [hm]
      exact congrArg₂ (fun x y => [x, y]) (habove 0 (by decide)) (habove 1 (by decide))
    have hword' : t.read16 address = t.read16 (address + UInt32.ofNat k) := hword
    unfold read16 at hword'
    rw [h1, h2] at hword'
    exact absurd hword' (by decide)
  | control r =>
    have hself : ∀ x, (t.setControl r x).control r = x := by
      intro x
      rw [control_setControl, Function.update_self]
    have hlow : u.control r = t.read32 address := Eq.trans hu (hself _)
    have hhigh : u.control r = t.read32 (address + UInt32.ofNat k) := Eq.trans hu' (hself _)
    have hlong := hlow.symm.trans hhigh
    have h1 : take t.memory address 4 = [1, 0, 0, 0] := by
      have htail : ∀ j : Nat, 0 < j → j < 4 → marked address (address + UInt32.ofNat j) = 0 :=
        fun j hpos hlt => hoff j hpos (by omega)
      rw [hm]
      show [marked address (address + 0), marked address (address + UInt32.ofNat 1),
        marked address (address + UInt32.ofNat 2), marked address (address + UInt32.ofNat 3)] = _
      rw [hat, htail 1 (by decide) (by decide), htail 2 (by decide) (by decide),
        htail 3 (by decide) (by decide)]
    have h2 : take t.memory (address + UInt32.ofNat k) 4 = [0, 0, 0, 0] := by
      rw [hm]
      show [marked address (address + UInt32.ofNat k + UInt32.ofNat 0),
        marked address (address + UInt32.ofNat k + UInt32.ofNat 1),
        marked address (address + UInt32.ofNat k + UInt32.ofNat 2),
        marked address (address + UInt32.ofNat k + UInt32.ofNat 3)] = _
      rw [habove 0 (by decide), habove 1 (by decide), habove 2 (by decide), habove 3 (by decide)]
    unfold M68kiCpu.read32 at hlong
    rw [h1, h2] at hlong
    exact absurd hlong (by decide)

theorem loadBlock_reverse_ne (hmany : 1 < regs.length) (hnodup : regs.Nodup)
    (hsize : blockSize regs ≤ 96) (hm : t.memory = marked address) :
    t.loadBlock address regs.reverse ≠ t.loadBlock address regs := by
  intro heq
  obtain ⟨a, mid, l, rfl⟩ := exists_ends hmany
  obtain ⟨ha, -⟩ := List.nodup_cons.1 hnodup
  have hfirst : a.Kept (a.load t address) (t.loadBlock address (a :: (mid ++ [l]))) :=
    kept_of_notMem _ _ _ ha
  have ha' : a ∉ l :: mid.reverse := by
    intro h
    rcases List.mem_cons.1 h with rfl | h
    · exact ha (List.mem_append_right mid (List.mem_singleton_self a))
    · exact ha (List.mem_append_left [l] (List.mem_reverse.1 h))
  have hlast : t.loadBlock address (a :: (mid ++ [l])).reverse
      = (a.load t (address + UInt32.ofNat (blockSize (l :: mid.reverse)))).loadBlock address
          (l :: mid.reverse) := by
    rw [reverse_ends, ← List.cons_append, loadBlock_append]
    exact load_loadBlock _ _ _ _ ha'
  have hkept := kept_of_notMem (l :: mid.reverse)
    (a.load t (address + UInt32.ofNat (blockSize (l :: mid.reverse)))) address ha'
  rw [← hlast, heq] at hkept
  have hslot : 4 ≤ l.size := by
    cases l with
    | data f => exact (by decide : 4 ≤ 12)
    | control c => exact Nat.le_refl 4
  have hbound : blockSize (l :: mid.reverse) ≤ 96 := by
    rw [← blockSize_reverse, reverse_ends, ← List.cons_append, blockSize_append] at hsize
    omega
  have habove : 4 ≤ blockSize (l :: mid.reverse) := by
    rw [blockSize_cons]
    omega
  exact load_marked_ne hm ⟨habove, by omega⟩ a hfirst hkept

end

/-! ## Instructions out of step -/

namespace Fmovem

section
variable (arith : SoftFloat) {i : Fmovem} {s : M68kiCpu} {p : UInt32 × M68kiCpu}

/-- Nothing is moved, and the extension words of the operand are left. -/
theorem not_oneBlock_empty (hempty : i.selected = []) (hr : ¬ i.Refused)
    (hmode : ¬ (eaMode i.ea ∈ [2, 3, 4] ∨ ¬ i.IsControl ∧ eaMode i.ea = 5)) :
    ¬ i.OneBlock arith := by
  intro h
  have hnone : i.transferred = [] := by
    rw [transferred_of_length (by rw [hempty]; decide), hempty]
  have hrun : (probe i.ir fun _ => 0).general arith i.w2 = probe i.ir fun _ => 0 := by
    by_cases hc : i.IsControl
    · rw [control_each arith hc rfl (by rw [hempty]; simp), hempty]
      split_ifs <;> rfl
    · have hlist : i.Stores ∨ ¬ i.PredecrementList := by
        by_cases hst : i.Stores
        · exact Or.inl hst
        · unfold Refused at hr
          rw [if_neg hc, if_neg hst] at hr
          exact Or.inr hr
      have h5 : eaMode i.ea ≠ 5 := fun h5 => hmode (Or.inr ⟨hc, h5⟩)
      rw [data_each arith hc rfl hlist, diModeEa, if_neg h5, hnone]
      split_ifs <;> rfl
  obtain ⟨p, hp⟩ := operand_known i.known (blockSize i.selected) (probe i.ir fun _ => 0)
  have hblock := h _ p rfl hp (congrArg reports hrun)
  have hpc : (probe i.ir fun _ => 0).pc = p.2.pc := by
    rw [hrun, hempty] at hblock
    split_ifs at hblock
    · exact congrArg M68kiCpu.pc hblock.1
    · exact congrArg M68kiCpu.pc hblock
  rw [blockAddress_zero rfl i.known hp] at hpc
  have hwords : wordsLength i.ea = 0 := UInt32.left_eq_add.1 hpc
  unfold wordsLength at hwords
  have hknown := i.known
  unfold eaKnown at hknown
  simp only [List.mem_cons, List.not_mem_nil, or_false] at hknown hmode
  split_ifs at hwords
  · exact absurd hwords (by decide)
  · exact absurd hwords (by decide)
  · exact absurd hwords (by decide)
  · omega

/-- Every register after the first one takes extension words from the next instruction. -/
theorem not_oneBlock_words (hc : ¬ i.IsControl) (hr : ¬ i.Refused) (hmany : 1 < i.selected.length)
    (hmode : eaMode i.ea = 6 ∨ eaMode i.ea = 7) : ¬ i.OneBlock arith := by
  intro h
  unfold Refused at hr
  rw [if_neg hc] at hr
  have hdi : (probe i.ir fun _ => 0).diModeEa i.ea = (0, probe i.ir fun _ => 0) := if_neg (by omega)
  have hlen : i.transferred.length = i.selected.length := by
    unfold transferred
    split_ifs
    · rfl
    · exact List.length_reverse
  have hrun : ((probe i.ir fun _ => 0).general arith i.w2).pc
        = 0x1000 + wordsLength i.ea * UInt32.ofNat i.selected.length ∧
      ((probe i.ir fun _ => 0).general arith i.w2).reports = (probe i.ir fun _ => 0).reports := by
    by_cases hst : i.Stores
    · rw [if_pos hst] at hr
      have h7 : eaMode i.ea = 7 :=
        hmode.resolve_left fun h6 => hr ⟨List.ne_nil_of_length_pos (by omega), h6⟩
      have h1 : (eaReg i.ea).val = 1 := by
        rcases known_of_stores hst with hm | ⟨-, he⟩
        · rw [h7] at hm
          exact absurd hm (by decide)
        · exact List.mem_singleton.1 he
      have hwords : wordsLength i.ea = 4 := by
        unfold wordsLength
        rw [if_pos h7, if_pos h1]
      have heach := pc_storeEach h7 h1 i.transferred (probe i.ir fun _ => 0) 0
      rw [data_each arith hc rfl (Or.inl hst), if_pos hst, hdi, hwords, ← hlen]
      exact heach
    · rw [if_neg hst] at hr
      obtain ⟨rs, hrs⟩ := transferred_data hc
      have hload : ∀ r ∈ i.transferred, r.LoadKnown i.ea := by
        intro r hin
        rw [hrs] at hin
        obtain ⟨f, -, rfl⟩ := List.mem_map.1 hin
        rcases i.known with hm | hext
        · simp only [List.mem_cons, List.not_mem_nil, or_false] at hm
          obtain h6 : eaMode i.ea = 6 := by omega
          refine Or.inl ?_
          rw [h6]
          decide
        · exact Or.inr hext
      have heach := pc_loadEach i.known i.transferred (probe i.ir fun _ => 0) 0 hload rfl
      rw [data_each arith hc rfl (Or.inr hr), if_neg hst, hdi, ← hlen]
      exact heach
  obtain ⟨p, hp⟩ := operand_known i.known (blockSize i.selected) (probe i.ir fun _ => 0)
  have hblock := h _ p rfl hp hrun.2
  have hpc : ((probe i.ir fun _ => 0).general arith i.w2).pc = p.2.pc := by
    split_ifs at hblock
    · rw [hblock.1]
      rfl
    · rw [hblock]
      exact (loadBlock_rest ..).1
  rw [hrun.1, blockAddress_zero rfl i.known hp] at hpc
  have hwords : wordsLength i.ea * UInt32.ofNat i.selected.length = wordsLength i.ea :=
    (UInt32.add_right_inj _).1 hpc
  have hcount : ∀ n : Fin 9, 1 < n.val →
      (2 : UInt32) * UInt32.ofNat n.val ≠ 2 ∧ (4 : UInt32) * UInt32.ofNat n.val ≠ 4 := by decide
  have hn := hcount ⟨i.selected.length, Nat.lt_succ_of_le i.length_selected⟩ hmany
  unfold wordsLength at hwords
  split_ifs at hwords
  · exact hn.2 hwords
  · exact hn.1 hwords
  · exact hn.1 hwords
  · omega

/-- All registers are moved to or from the first slot. -/
theorem not_oneBlock_place (hc : ¬ i.IsControl) (hr : ¬ i.Refused) (hmany : 1 < i.selected.length)
    (h2 : eaMode i.ea = 2) : ¬ i.OneBlock arith := by
  intro h
  unfold Refused at hr
  rw [if_neg hc] at hr
  obtain ⟨rs, hrs⟩ := transferred_data hc
  obtain ⟨f, g, rest, hlist⟩ : ∃ f g rest, i.dataRegisters = f :: g :: rest := by
    rw [selected_data hc, List.length_map] at hmany
    match hd : i.dataRegisters with
    | [] => rw [hd] at hmany; exact absurd hmany (by decide)
    | [_] => rw [hd] at hmany; exact absurd hmany (by simp)
    | f :: g :: rest => exact ⟨f, g, rest, rfl⟩
  have hsel : i.selected = .data f :: .data g :: rest.map .data := by
    rw [selected_data hc, hlist]
    rfl
  have hp : ∀ m, i.operand (probe i.ir m) = some (0x8000, probe i.ir m) :=
    fun m => blockAddress_indirect h2
  have hdi : ∀ m, (probe i.ir m).diModeEa i.ea = (0, probe i.ir m) := fun m => if_neg (by omega)
  by_cases hst : i.Stores
  · obtain ⟨hmemory, hreports⟩ := storeEach_indirect h2 (b := 0x800c) rs (probe i.ir fun _ => 0) 0
      (show 12 ≤ ((0x800c : UInt32) - 0x8000).toNat by decide)
    have hrun : (probe i.ir fun _ => 0).general arith i.w2
        = (probe i.ir fun _ => 0).storeEach i.ea 0 (rs.map .data) := by
      rw [data_each arith hc rfl (Or.inl hst), if_pos hst, hdi, hrs]
    have hblock := h _ _ rfl (hp _) (by rw [hrun]; exact hreports)
    rw [if_pos hst, hrun] at hblock
    have hempty : put (fun _ => 0) 0x8000 (blockBytes (probe i.ir fun _ => 0) i.selected) 0x800c = 0 := by
      rw [hblock.1] at hmemory
      exact hmemory
    have hbyte : ∀ g : Fin 8, (floatBytes ⟨0x0101 * UInt16.ofNat (g.val + 1), 0⟩)[0]?
        = some (UInt8.ofNat (g.val + 1)) := by decide
    have hne : ∀ g : Fin 8, UInt8.ofNat (g.val + 1) ≠ 0 := by decide
    have hsize : (blockBytes (probe i.ir fun _ => 0) i.selected).length ≤ 2 ^ 32 := by
      rw [length_blockBytes]
      exact i.blockSize_selected.trans (by decide)
    have hsecond : (blockBytes (probe i.ir fun _ => 0) i.selected)[12]? = some (UInt8.ofNat (g.val + 1)) := by
      have hfirst : (MovedRegister.bytes (probe i.ir fun _ => 0) (.data f)).length = 12 :=
        length_bytes _ _
      rw [hsel, blockBytes, List.flatMap_cons, List.flatMap_cons,
        List.getElem?_append_right (le_of_eq hfirst), hfirst, Nat.sub_self,
        List.getElem?_append_left (by rw [length_bytes]; exact (by decide : 0 < 12))]
      exact hbyte g
    have hindex : ((0x800c : UInt32) - 0x8000).toNat = 12 := by decide
    rw [put_apply hsize, hindex, hsecond] at hempty
    exact hne g hempty
  · rw [if_neg hst] at hr
    obtain ⟨hg, hreports⟩ := loadEach_indirect h2 g rs (probe i.ir (marked 0x8000)) 0
    have hrun : (probe i.ir (marked 0x8000)).general arith i.w2
        = (probe i.ir (marked 0x8000)).loadEach i.ea 0 (rs.map .data) := by
      rw [data_each arith hc rfl (Or.inr hr), if_neg hst, hdi, hrs]
    have hblock := h _ _ rfl (hp _) (by rw [hrun]; exact hreports)
    rw [if_neg hst, hrun, hsel] at hblock
    rw [hblock] at hg
    have hnodup := i.nodup_selected
    rw [hsel] at hnodup
    have hrest := (List.nodup_cons.1 (List.nodup_cons.1 hnodup).2).1
    have hkept := kept_of_notMem (rest.map .data)
      (MovedRegister.load (MovedRegister.load (probe i.ir (marked 0x8000)) 0x8000 (.data f)) 0x800c (.data g))
      0x8018 hrest
    have hvalue : ((probe i.ir (marked 0x8000)).loadBlock 0x8000
        (.data f :: .data g :: rest.map .data)).fp g
          = (probe i.ir (marked 0x8000)).loadExtendedFloat80 0x800c :=
      Eq.trans hkept (Function.update_self ..)
    rw [hvalue] at hg
    have hzero : ((probe i.ir (marked 0x8000)).loadExtendedFloat80 0x800c).high = 0 := by
      show UInt16.ofNat (bigEndian (take (marked 0x8000) 0x800c 2)) = 0
      decide
    have hfirst : ((probe i.ir (marked 0x8000)).loadExtendedFloat80 0x8000).high = 0x0100 := by
      show UInt16.ofNat (bigEndian (take (marked 0x8000) 0x8000 2)) = 0x0100
      decide
    have hne : ∀ g : Fin 8, (0 : UInt16) ≠ 0x0101 * UInt16.ofNat (g.val + 1) := by decide
    rcases hg with hg | hg
    · have hhigh := congrArg Floatx80.high hg
      rw [hzero] at hhigh
      exact absurd (hhigh.trans hfirst) (by decide)
    · have hhigh := congrArg Floatx80.high hg
      rw [hzero] at hhigh
      exact hne g hhigh

/-- The address of the probed block. -/
def probeAddress (i : Fmovem) : UInt32 :=
  if eaMode i.ea = 4 then 0x8000 - UInt32.ofNat (blockSize i.selected) else 0x8000

/-- The block is away from the extension words. -/
theorem probeAddress_bounds (i : Fmovem) :
    0x7fa0 ≤ i.probeAddress.toNat ∧ i.probeAddress.toNat ≤ 0x8000 := by
  have hsize := i.blockSize_selected
  unfold probeAddress
  split_ifs
  · rw [UInt32.toNat_sub, UInt32.toNat_ofNat', show (0x8000 : UInt32).toNat = 0x8000 from rfl]
    omega
  · exact ⟨by decide, by decide⟩

theorem operand_probe (hm : eaMode i.ea = 3 ∨ eaMode i.ea = 4 ∨ eaMode i.ea = 5) {m : Memory}
    (h0 : m 0x1000 = 0) (h1 : m 0x1001 = 0) :
    ∃ t, i.operand (probe i.ir m) = some (i.probeAddress, t) := by
  unfold probeAddress
  rcases hm with h3 | h4 | h5
  · rw [if_neg (by omega)]
    exact ⟨_, blockAddress_postincrement h3⟩
  · rw [if_pos h4]
    exact ⟨_, blockAddress_predecrement h4⟩
  · have hbytes : take m 0x1000 2 = [0, 0] := congrArg₂ (fun x y => [x, y]) h0 h1
    have hword : (probe i.ir m).readImm16.1 = 0 := by
      show UInt16.ofNat (bigEndian (take m 0x1000 2)) = 0
      rw [hbytes]
      decide
    rw [if_neg (by omega)]
    refine ⟨(probe i.ir m).readImm16.2, (blockAddress_displacement h5).trans ?_⟩
    rw [eaAyDi, hword]
    rfl

/-- The registers are in the other order. -/
theorem not_oneBlock_reversed (hmany : 1 < i.selected.length)
    (hm : eaMode i.ea = 3 ∨ eaMode i.ea = 4 ∨ eaMode i.ea = 5)
    (hrun : ∀ (s : M68kiCpu) (p : UInt32 × M68kiCpu), s.ir = i.ir → i.operand s = some p →
      s.general arith i.w2 = if i.Stores then p.2.storeBlock p.1 i.selected.reverse
        else p.2.loadBlock p.1 i.selected.reverse) : ¬ i.OneBlock arith := by
  intro h
  obtain ⟨hlow, hhigh⟩ := i.probeAddress_bounds
  have hoff : ∀ b : UInt32, b.toNat < 0x7fa0 → marked i.probeAddress b = 0 := by
    intro b hb
    refine Function.update_of_ne (fun hba => ?_) _ _
    rw [hba] at hb
    omega
  obtain ⟨t, hp⟩ := operand_probe hm (hoff 0x1000 (by decide)) (hoff 0x1001 (by decide))
  obtain ⟨hreports, hmemory⟩ := reports_operand hp
  have hgeneral := hrun (probe i.ir (marked i.probeAddress)) _ rfl hp
  have hkept : ((probe i.ir (marked i.probeAddress)).general arith i.w2).reports
      = (probe i.ir (marked i.probeAddress)).reports := by
    rw [hgeneral, ← hreports]
    split_ifs
    · rfl
    · exact (loadBlock_rest ..).2
  have hblock := h _ _ rfl hp hkept
  rw [hgeneral] at hblock
  by_cases hst : i.Stores
  · rw [if_pos hst, if_pos hst] at hblock
    obtain ⟨a, pc, hmoved⟩ := moved_eaAddress hp
    have hbytes : MovedRegister.bytes t
        = MovedRegister.bytes (probe i.ir (marked i.probeAddress)) := by
      rw [show t = _ from hmoved]
      exact bytes_congr rfl (by funext c; cases c <;> rfl)
    refine storeBlock_reverse_ne hmany i.nodup_selected (fun r hr => size_selected hr)
      (i.blockSize_selected.trans (by decide)) (fun r hr q hq heq => ?_) i.probeAddress hblock.1
    rw [hbytes] at heq
    exact bytes_probe ((size_selected hr).trans (size_selected hq).symm) heq
  · rw [if_neg hst, if_neg hst] at hblock
    exact loadBlock_reverse_ne hmany i.nodup_selected i.blockSize_selected hmemory hblock

theorem not_oneBlock_controls (hc : i.IsControl) (hmany : 1 < i.selected.length)
    (h4 : eaMode i.ea = 4) : ¬ i.OneBlock arith := by
  refine not_oneBlock_reversed arith hmany (Or.inr (Or.inl h4)) fun s p hir hp => ?_
  rw [control_each arith hc hir (by omega),
    storeEach_predecrement h4 _ s 0 p (i.blockSize_selected.trans (by decide)) hp,
    loadEach_predecrement h4 _ s 0 p i.nodup_selected hp]

/-- A list of the other modes begins with FP7. -/
theorem not_oneBlock_list (hc : ¬ i.IsControl) (hpre : ¬ i.PredecrementList)
    (hmany : 1 < i.selected.length) (hm : eaMode i.ea = 3 ∨ eaMode i.ea = 5) : ¬ i.OneBlock arith := by
  have hreverse : i.transferred = i.selected.reverse := if_neg (not_or.2 ⟨hc, hpre⟩)
  refine not_oneBlock_reversed arith hmany (hm.imp_right Or.inr) fun s p hir hp => ?_
  rw [data_each arith hc hir (Or.inr hpre)]
  rcases hm with h3 | h5
  · have hp' : s.blockAddress (blockSize i.selected.reverse) i.ea = some p := by
      rw [blockSize_reverse]
      exact hp
    have hdi : s.diModeEa i.ea = (0, s) := if_neg (by omega)
    rw [hdi, hreverse, storeEach_postincrement h3 _ s 0 p hp', loadEach_postincrement h3 _ s 0 p hp']
  · obtain ⟨rs, hrs⟩ := transferred_data hc
    rw [diModeEa_displacement h5 hp, hrs, storeEach_displacement h5, loadEach_displacement h5, ← hrs,
      hreverse]

/-- A list of the predecrement mode begins with FP0, and goes downwards. -/
theorem not_oneBlock_predecrement (hc : ¬ i.IsControl) (hst : i.Stores) (hpre : i.PredecrementList)
    (hmany : 1 < i.selected.length) (h4 : eaMode i.ea = 4) : ¬ i.OneBlock arith := by
  refine not_oneBlock_reversed arith hmany (Or.inr (Or.inl h4)) fun s p hir hp => ?_
  have hdi : s.diModeEa i.ea = (0, s) := if_neg (by omega)
  have horder : i.transferred = i.selected := if_pos (Or.inr hpre)
  rw [data_each arith hc hir (Or.inl hst), if_pos hst, if_pos hst, hdi, horder,
    storeEach_predecrement h4 _ s 0 p (i.blockSize_selected.trans (by decide)) hp]

/-! ## The list of the predecrement mode with an operand that goes upwards -/

/-- The load of the same registers from the same operand. -/
def partner (i : Fmovem) : Fmovem where
  ir := i.ir
  w2 := (0xd000 : UInt16) ||| (mirrored (i.w2 &&& 0xff).toUInt8).toUInt16
  moves := by
    rw [(restore_extension (i.w2 &&& 0xff).toUInt8).1]
    decide
  static := fun _ => Or.inr (restore_extension (i.w2 &&& 0xff).toUInt8).2.2
  mode := by
    rw [if_neg (not_not_intro (restore_extension (i.w2 &&& 0xff).toUInt8).2.1)]
    exact i.known

theorem partner_load (i : Fmovem) :
    ¬ i.partner.Stores ∧ ¬ i.partner.IsControl ∧ ¬ i.partner.PredecrementList := by
  obtain ⟨hsix, hload, hlist⟩ := restore_extension (i.w2 &&& 0xff).toUInt8
  refine ⟨not_not_intro hload, ?_, ?_⟩
  · intro h
    have hlt : 6 < 6 := lt_of_eq_of_lt hsix.symm h
    exact absurd hlt (lt_irrefl 6)
  · intro h
    exact absurd (hlist.symm.trans h) (by decide)

theorem selected_partner (hc : ¬ i.IsControl) (hpre : i.PredecrementList) :
    i.partner.selected = i.selected := by
  obtain ⟨-, hcontrol, hlist⟩ := i.partner_load
  have hreversed := listedReversed_eq hlist
  have hmirrored := (listed_extension (i.w2 &&& 0xff).toUInt8).2
  have hlow : (i.w2 &&& 0xff).toUInt8.toNat = (i.w2 &&& 0xff).toNat := by
    rw [UInt16.toNat_toUInt8, UInt16.toNat_and]
    exact Nat.mod_eq_of_lt (Nat.lt_succ_of_le Nat.and_le_right)
  have hregisters : registers (i.w2 &&& 0xff).toUInt8 = i.dataRegisters := by
    unfold registers
    rw [hlow]
    exact listed_eq hpre
  rw [selected_data hcontrol, selected_data hc]
  congr 1
  rw [← List.reverse_inj, ← hreversed, ← hregisters]
  exact hmirrored

/-- The registers are stored with FP0 first, and loaded with FP7 first. -/
theorem not_oneBlock_loaded (hc : ¬ i.IsControl) (hst : i.Stores) (hpre : i.PredecrementList)
    (hmany : 1 < i.selected.length) (hm : eaMode i.ea = 3 ∨ eaMode i.ea = 5) :
    ¬ i.OneBlock arith := by
  intro h
  obtain ⟨hload, hcontrol, hlist⟩ := i.partner_load
  have hsel := selected_partner hc hpre
  have hm' : eaMode i.ea = 3 ∨ eaMode i.ea = 4 ∨ eaMode i.ea = 5 := by omega
  have hsize : blockSize i.selected ≤ 2 ^ 32 := i.blockSize_selected.trans (by decide)
  obtain ⟨t, hp⟩ := operand_probe (i := i) hm' (m := fun _ => 0) rfl rfl
  have haddress : i.probeAddress = 0x8000 := if_neg (by omega)
  rw [haddress] at hp
  -- the store makes the block
  have hstored : (probe i.ir fun _ => 0).general arith i.w2 = t.storeBlock 0x8000 i.selected := by
    have horder : i.transferred = i.selected := if_pos (Or.inr hpre)
    rw [data_each arith hc rfl (Or.inl hst), if_pos hst]
    rcases hm with h3 | h5
    · have hdi : (probe i.ir fun _ => 0).diModeEa i.ea = (0, probe i.ir fun _ => 0) :=
        if_neg (by omega)
      rw [hdi, horder, storeEach_postincrement h3 _ _ 0 _ hp]
    · obtain ⟨rs, hrs⟩ := transferred_data hc
      rw [diModeEa_displacement h5 hp, hrs, storeEach_displacement h5, ← hrs, horder]
  have hreports : ((probe i.ir fun _ => 0).general arith i.w2).reports
      = (probe i.ir fun _ => 0).reports := by
    rw [hstored, ← (reports_operand hp).1]
    rfl
  have hblock := h _ _ rfl hp hreports
  rw [if_pos hst] at hblock
  -- which leaves the extension words alone
  obtain ⟨m, hmemory⟩ : ∃ m, m = ((probe i.ir fun _ => 0).general arith i.w2).memory := ⟨_, rfl⟩
  have hput : m = put (fun _ => 0) 0x8000 (blockBytes t i.selected) := by
    rw [hmemory, hstored]
    exact congrArg (fun m => put m 0x8000 (blockBytes t i.selected)) (reports_operand hp).2
  have hlen : (blockBytes t i.selected).length ≤ 96 := by
    rw [length_blockBytes]
    exact i.blockSize_selected
  have houtside : ∀ b : UInt32, 96 ≤ (b - 0x8000).toNat → m b = 0 := by
    intro b hb
    rw [hput, put_apply (by omega), List.getElem?_eq_none (by omega)]
    rfl
  obtain ⟨u, hq⟩ : ∃ u, i.partner.operand (probe i.ir m) = some (0x8000, u) := by
    have haddress' : i.partner.probeAddress = 0x8000 := if_neg (show ¬ eaMode i.ea = 4 by omega)
    rw [← haddress']
    exact operand_probe (i := i.partner) hm' (houtside 0x1000 (by decide)) (houtside 0x1001 (by decide))
  -- the load goes through the registers in the other order
  have hloaded : (probe i.ir m).general arith i.partner.w2
      = u.loadBlock 0x8000 i.selected.reverse := by
    have horder : i.partner.transferred = i.selected.reverse := by
      rw [transferred, if_neg (not_or.2 ⟨hcontrol, hlist⟩), hsel]
    rw [data_each arith hcontrol rfl (Or.inr hlist), if_neg hload]
    rcases hm with h3 | h5
    · have h3' : eaMode i.partner.ea = 3 := h3
      have hdi : (probe i.ir m).diModeEa i.partner.ea = (0, probe i.ir m) := if_neg (by omega)
      have hq' : (probe i.ir m).blockAddress (blockSize i.selected.reverse) i.partner.ea
          = some (0x8000, u) := by
        rw [blockSize_reverse, ← hsel]
        exact hq
      rw [hdi, horder, loadEach_postincrement h3' _ _ 0 _ hq']
    · have h5' : eaMode i.partner.ea = 5 := h5
      obtain ⟨rs, hrs⟩ := transferred_data hcontrol
      rw [diModeEa_displacement h5' hq, hrs, loadEach_displacement h5', ← hrs, horder]
  have hkept := hblock.2 i.partner (probe i.ir m) _ hload hsel rfl rfl hmemory hq rfl
    (by rw [hloaded, (loadBlock_rest ..).2, (reports_operand hq).1])
  rw [hloaded] at hkept
  obtain ⟨a, mid, l, hends⟩ := exists_ends hmany
  have hnodup := i.nodup_selected
  have hbytes : a.bytes t = a.bytes (probe i.ir fun _ => 0) := by
    have hsame := blockBytes_operand hp [a]
    rw [blockBytes, blockBytes, List.flatMap_singleton, List.flatMap_singleton] at hsame
    exact hsame
  have hsizes : l.size = a.size := by
    have hin : a ∈ i.selected ∧ l ∈ i.selected := by simp [hends]
    exact (size_selected hin.2).trans (size_selected hin.1).symm
  rw [hends] at hkept hnodup hsize
  have hlast := hkept l (by simp)
  rw [reverse_ends] at hlast
  have hlnot : l ∉ mid.reverse ++ [a] := by
    have hreverse := List.nodup_reverse.2 hnodup
    rw [reverse_ends] at hreverse
    exact (List.nodup_cons.1 hreverse).1
  have hslot : take u.memory 0x8000 a.size = a.bytes (probe i.ir fun _ => 0) := by
    have hfirst := take_first t 0x8000 hsize
    rw [← hends, ← hstored, ← hmemory, hbytes] at hfirst
    rw [(reports_operand hq).2]
    exact hfirst
  have hloadedLast :=
    kept_of_notMem (mid.reverse ++ [a]) (l.load u 0x8000) (0x8000 + UInt32.ofNat l.size) hlnot
  have hal := bytes_probe hsizes (bytes_of_loaded hsizes hslot hloadedLast hlast)
  exact hlnot (List.mem_append_right _ (List.mem_singleton.2 hal))

theorem not_oneBlock (hr : ¬ i.Refused) (hstep : ¬ i.InStep) : ¬ i.OneBlock arith := by
  unfold InStep at hstep
  rw [not_or, not_or] at hstep
  obtain ⟨hempty, hone, hmany⟩ := hstep
  by_cases hn : i.selected = []
  · exact not_oneBlock_empty arith hn hr fun h => hempty ⟨hn, h⟩
  have hpos := List.length_pos_of_ne_nil hn
  have hlen : 1 < i.selected.length := by omega
  by_cases hc : i.IsControl
  · have h4 : eaMode i.ea = 4 := by
      rw [if_pos hc] at hmany
      by_contra h4
      exact hmany ⟨hlen, h4⟩
    exact not_oneBlock_controls arith hc hlen h4
  rw [if_neg hc] at hmany
  have hmode : eaMode i.ea = 2 ∨ (eaMode i.ea = 3 ∨ eaMode i.ea = 5) ∨ eaMode i.ea = 4 ∨
      eaMode i.ea = 6 ∨ eaMode i.ea = 7 := by
    rcases i.known with hm | ⟨h7, -⟩
    · simp only [List.mem_cons, List.not_mem_nil, or_false] at hm
      omega
    · omega
  rcases hmode with h2 | h35 | h4 | h67
  · exact not_oneBlock_place arith hc hr hlen h2
  · by_cases hpre : i.PredecrementList
    · have hst : i.Stores := by
        unfold Refused at hr
        rw [if_neg hc] at hr
        by_contra hst
        rw [if_neg hst] at hr
        exact hr hpre
      exact not_oneBlock_loaded arith hc hst hpre hlen h35
    · exact not_oneBlock_list arith hc hpre hlen h35
  · have hpre : i.PredecrementList := by
      by_contra hpre
      exact hmany ⟨hlen, h4, hpre⟩
    have hst : i.Stores := by
      unfold Refused at hr
      rw [if_neg hc] at hr
      by_contra hst
      rw [if_neg hst] at hr
      exact hr hpre
    exact not_oneBlock_predecrement arith hc hst hpre hlen h4
  · exact not_oneBlock_words arith hc hr hlen h67

end

/-- An instruction moves one block exactly if it is in step. -/
theorem oneBlock_iff (arith : SoftFloat) (i : Fmovem) :
    i.OneBlock arith ↔ i.Refused ∨ i.InStep := by
  constructor
  · intro h
    by_contra hnot
    rw [not_or] at hnot
    exact not_oneBlock arith hnot.1 hnot.2 h
  · rintro (hr | hstep)
    · intro s p hir _ hreports
      exact absurd hreports (refused_reports arith hr hir)
    · by_cases hr : i.Refused
      · intro s p hir _ hreports
        exact absurd hreports (refused_reports arith hr hir)
      · exact oneBlock_of_inStep arith hr hstep

/-- `FMOVEM.X FP0/FP1,(A0)` puts both registers into the same slot. -/
theorem two_registers_one_slot :
    ¬ ∀ (arith : SoftFloat) (i : Fmovem), i.OneBlock arith := by
  intro h
  exact not_oneBlock_place default
    (i := ⟨0xf210, 0xf0c0, by decide, fun _ => Or.inr (by decide), Or.inl (by decide)⟩) (by decide)
    (by decide) (by decide) (by decide) (h default _)

end Fmovem

end CuteMac.Fpu
