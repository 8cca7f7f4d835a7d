/-
  Accesses that cross a page.

  * `touched`: the bytes of an access; `paged`: those at its own addresses;
  * `Uniform`: two addresses in one page are translated alike;
  * `uniform_access`: so is every access of a 68030 and of a 68040;
  * `crossing_iff`: an access touches its own bytes exactly where the second page
    continues the first one.
-/
import CuteMac.Cpu.TranslationCache

namespace CuteMac.Cpu

open ByteMemory Pages

/-! ## Bytes -/

def pageBits (r : Registers) : UInt32 :=
  if r.kind = .m68040 then (if largePages r then 13 else 12) else pmmuPageShift r

/-- A 68040, or a 68030 with translation enabled. -/
def Translating (r : Registers) : Prop :=
  r.kind = .m68040 ∨ (r.kind = .m68030 ∧ r.pmmuEnabled = true ∧ ValidTc r)

/-- The physical addresses of the bytes that an access reads or writes; nothing, where it
    faults. -/
def touched (s : M68kMmu) (size : Nat) (address fc : UInt32) (rw : Bool) : Option (List UInt32) :=
  (accessAddress s address fc rw size).2.map fun p => span p size

theorem readFc_touched (s : M68kMmu) (size : Nat) (address fc : UInt32) :
    (readFc s size address fc).2 =
      (touched s size address fc true).map (compose (readFc s size address fc).1.memory) := by
  simp only [readFc, touched, Option.map_map]
  rfl

theorem writeFc_touched (s : M68kMmu) (size : Nat) (address fc value : UInt32) :
    (writeFc s size address fc value).2 = (touched s size address fc false).isSome ∧
      (writeFc s size address fc value).1.memory =
        match touched s size address fc false with
        | none => (accessAddress s address fc false size).1.memory
        | some bytes => store (accessAddress s address fc false size).1.memory bytes value := by
  unfold writeFc touched
  rcases accessAddress s address fc false size with ⟨s', _ | p⟩
  · exact ⟨rfl, rfl⟩
  · exact ⟨rfl, rfl⟩

/-- The physical addresses of the bytes, each translated for itself; nothing, where one faults. -/
def paged (s : M68kMmu) (size : Nat) (address fc : UInt32) (rw : Bool) : Option (List UInt32) :=
  (List.range size).mapM fun i => (accessAddress s (address + UInt32.ofNat i) fc rw size).2

/-! ## Pages -/

/-- What the translations of two addresses in one page have in common. -/
inductive Uniform (n a b : UInt32) : Option UInt32 → Option UInt32 → Prop
  | faults : Uniform n a b none none
  | translated {p q : UInt32} (page : SamePage n p q)
      (offset : p.toNat % 2 ^ n.toNat = a.toNat % 2 ^ n.toNat)
      (offset' : q.toNat % 2 ^ n.toNat = b.toNat % 2 ^ n.toNat) : Uniform n a b (some p) (some q)

section
variable {n a b : UInt32}

/-- The physical addresses are as far apart as the addresses. -/
theorem Uniform.add {i : Nat} {x y : Option UInt32} (h : Uniform n a (a + UInt32.ofNat i) x y)
    (hn : n.toNat ≤ 32) (hi : a.toNat % 2 ^ n.toNat + i < 2 ^ n.toNat) :
    y = x.map fun p => p + UInt32.ofNat i := by
  cases h with
  | faults => rfl
  | @translated p q page offset offset' =>
    obtain ⟨-, hoffset⟩ := samePage_add hn hi
    rw [← offset] at hi
    obtain ⟨hpage, hoffset'⟩ := samePage_add hn hi
    refine congrArg some (UInt32.toNat_inj.1 ?_)
    rw [← Nat.div_add_mod q.toNat (2 ^ n.toNat), offset', hoffset, ← offset, ← hoffset', ← page,
      hpage, Nat.div_add_mod]

/-! ## The 68030 -/

variable {s : M68kMmu} {r : Registers} {fc : UInt32} {rw : Bool} {size : Nat}

theorem frame_high (h8 : 8 ≤ n.toNat) (h16 : n.toNat < 16) :
    ~~~lowMask n &&& 0xff000000 = 0xff000000 := by
  have hn : n = UInt32.ofNat n.toNat := UInt32.ofNat_toNat.symm
  generalize n.toNat = k at *
  subst hn
  interval_cases k <;> rfl

/-- The high byte of an address is that of its page. -/
theorem and_high_congr (h8 : 8 ≤ n.toNat) (h16 : n.toNat < 16) (hab : SamePage n a b)
    {mask : UInt32} (hmask : 0xff000000 &&& mask = mask) : a &&& mask = b &&& mask := by
  rw [← hmask, ← UInt32.and_assoc, ← UInt32.and_assoc,
    and_congr_of_disjoint (by omega) (by omega) hab (frame_high h8 h16)]

theorem pmmuMatchTt_congr (h8 : 8 ≤ n.toNat) (h16 : n.toNat < 16) (hab : SamePage n a b)
    (tt : UInt32) : pmmuMatchTt a fc tt rw = pmmuMatchTt b fc tt rw := by
  have hmask : ∀ x c : UInt32, c &&& ((x &&& c) ^^^ c) = (x &&& c) ^^^ c := by
    intro x c
    rw [← UInt32.toBitVec_inj]
    ext i hi
    simp only [UInt32.toBitVec_and, UInt32.toBitVec_xor, BitVec.getElem_and, BitVec.getElem_xor]
    cases x.toBitVec[i] <;> cases c.toBitVec[i] <;> rfl
  unfold pmmuMatchTt
  dsimp only
  rw [and_high_congr h8 h16 hab (hmask (tt <<< 8) 0xff000000)]

theorem serves_congr (hn : 0 < (pmmuPageShift r).toNat) (hn' : (pmmuPageShift r).toNat < 32)
    (hab : SamePage (pmmuPageShift r) a b) (entry : AtcEntry) :
    entry.serves r a fc = entry.serves r b fc := by
  have hframe : a &&& ~~~pageMask r = b &&& ~~~pageMask r := (frame_inj hn hn').2 hab
  rw [AtcEntry.serves, AtcEntry.serves, hframe]

theorem atcScan_congr (hn : 0 < (pmmuPageShift r).toNat) (hn' : (pmmuPageShift r).toNat < 32)
    (hab : SamePage (pmmuPageShift r) a b) (ptest : Bool) (atc : List AtcEntry) :
    atcScan r a fc rw ptest atc = atcScan r b fc rw ptest atc := by
  induction atc with
  | nil => rfl
  | cons entry atc ih => rw [atcScan, atcScan, serves_congr hn hn' hab, ih]

/-- The address that a result gives, unless it is a fault. -/
def TranslationResult.address (t : TranslationResult) : Option UInt32 :=
  if t.fault then none else some t.physicalAddress

theorem uniform_identity (hab : SamePage n a b) : Uniform n a b (some a) (some b) :=
  .translated hab rfl rfl

theorem uniform_results {t u : TranslationResult} (hfault : t.fault = u.fault)
    (page : SamePage n t.physicalAddress u.physicalAddress)
    (offset : t.physicalAddress.toNat % 2 ^ n.toNat = a.toNat % 2 ^ n.toNat)
    (offset' : u.physicalAddress.toNat % 2 ^ n.toNat = b.toNat % 2 ^ n.toNat) :
    Uniform n a b t.address u.address := by
  unfold TranslationResult.address
  rw [hfault]
  split_ifs
  · exact .faults
  · exact .translated page offset offset'

/-- An entry translates its page. -/
theorem uniform_entry (hn : 0 < (pmmuPageShift r).toNat) (hn' : (pmmuPageShift r).toNat < 32)
    {entry : AtcEntry} (hsize : entry.pageShift = pmmuPageShift r)
    (result result' : TranslationResult) :
    Uniform (pmmuPageShift r) a b (entry.answer r a rw result).address
      (entry.answer r b rw result').address := by
  have haligned : entry.physicalPage &&& lowMask (pmmuPageShift r) = 0 := hsize ▸ entry.aligned
  have hoffset : ∀ c, (entry.physicalPage ||| (c &&& lowMask (pmmuPageShift r))) &&&
      lowMask (pmmuPageShift r) = c &&& lowMask (pmmuPageShift r) := by
    intro c
    rw [UInt32.or_comm, or_and_of_disjoint haligned, UInt32.and_assoc, UInt32.and_self]
  have hframe : ∀ c, (entry.physicalPage ||| (c &&& lowMask (pmmuPageShift r))) &&&
      ~~~lowMask (pmmuPageShift r) = entry.physicalPage &&& ~~~lowMask (pmmuPageShift r) := by
    intro c
    refine or_and_of_disjoint ?_
    rw [UInt32.and_assoc, UInt32.and_not_self, UInt32.and_zero]
  exact uniform_results rfl ((frame_inj hn hn').1 ((hframe a).trans (hframe b).symm))
    ((and_lowMask_inj hn hn').1 (hoffset a)) ((and_lowMask_inj hn hn').1 (hoffset b))

/-- So does a walk, whatever the tables are. -/
theorem uniform_walk (htc : ValidTc s.regs) (htmp : s.tmpSr = 0)
    (hab : SamePage (pmmuPageShift s.regs) a b) :
    Uniform (pmmuPageShift s.regs) a b
      (pmmuWalkTables s a fc rw 7 true { physicalAddress := a }).2.address
      (pmmuWalkTables s b fc rw 7 true { physicalAddress := b }).2.address := by
  have hend := (start_alike fc htc hab s.memory s.memory).loop_memory s.physicalError fc rw true 7
    (by omega) htc.size hab rfl
  have hresult : SameResult s.regs a b (pmmuWalkTables s a fc rw 7 true { physicalAddress := a }).2
      (pmmuWalkTables s b fc rw 7 true { physicalAddress := b }).2 := by
    unfold pmmuWalkTables
    rw [htmp]
    exact hend.finish 7
  have hfault : ∀ c, (pmmuWalkTables s c fc rw 7 true { physicalAddress := c }).2.fault =
      (hardFault (pmmuWalkTables s c fc rw 7 true { physicalAddress := c }).2.status ||
        (!rw && (pmmuWalkTables s c fc rw 7 true { physicalAddress := c }).2.status &&&
          srWriteProtect != 0)) := fun c => rfl
  refine uniform_results ?_ hresult.page hresult.offset hresult.offset'
  rw [hfault a, hfault b, hresult.status.hardFault, hresult.status.writeProtect]

theorem accessAddress_eq (ht : translates s.regs = true) :
    (accessAddress s a fc rw size).2 = (translateAccess s a fc rw size).2.address := by
  unfold accessAddress
  rw [if_pos ht]
  rfl

theorem uniform_030 (hk : s.regs.kind = .m68030) (he : s.regs.pmmuEnabled = true)
    (htc : ValidTc s.regs) (hab : SamePage (pmmuPageShift s.regs) a b) :
    Uniform (pmmuPageShift s.regs) a b (accessAddress s a fc rw size).2
      (accessAddress s b fc rw size).2 := by
  have hsize := htc.size
  have hn : 0 < (pmmuPageShift s.regs).toNat := by have := hsize.low; omega
  have hn' : (pmmuPageShift s.regs).toNat < 32 := by have := hsize.high; omega
  have hk' : s.regs.kind ≠ .m68040 := by rw [hk]; decide
  have ht : translates s.regs = true := by
    unfold translates
    rw [hk, he]
    rfl
  have htransparent : transparent s.regs a fc rw = transparent s.regs b fc rw := by
    unfold transparent
    rw [pmmuMatchTt_congr hsize.low hsize.high hab, pmmuMatchTt_congr hsize.low hsize.high hab]
  rw [accessAddress_eq ht, accessAddress_eq ht]
  cases htt : transparent s.regs b fc rw with
  | true =>
    rw [translateAccess_transparent hk' htt, translateAccess_transparent hk' (htransparent.trans htt)]
    exact uniform_identity hab
  | false =>
    have hcongr : atcScan s.regs a fc rw false s.atc = atcScan s.regs b fc rw false s.atc :=
      atcScan_congr hn hn' hab false s.atc
    cases hscan : (atcScan s.regs b fc rw false s.atc).2 with
    | some entry =>
      rw [translateAccess_hit hk' htt hscan,
        translateAccess_hit hk' (htransparent.trans htt) (hcongr ▸ hscan)]
      have hserves := ((atcScan_scanned s.regs b fc rw s.atc).hit entry hscan).2
      simp only [AtcEntry.serves, Bool.and_eq_true, beq_iff_eq] at hserves
      exact uniform_entry hn hn' hserves.1.1.2 _ _
    | none =>
      rw [translateAccess_miss hk' htt hscan,
        translateAccess_miss hk' (htransparent.trans htt) (hcongr ▸ hscan)]
      exact uniform_walk (s := walkStart s a fc rw) htc rfl hab

/-! ## The 68040 -/

theorem pageBits_040 (hk : r.kind = .m68040) :
    pageBits r = (if largePages r then 13 else 12) ∧ 8 ≤ (pageBits r).toNat ∧
      (pageBits r).toNat < 16 ∧ pageOffsetMask040 r = lowMask (pageBits r) := by
  have hbits : pageBits r = if largePages r then 13 else 12 := if_pos hk
  rw [hbits, pageOffsetMask040]
  cases largePages r <;> exact ⟨rfl, by decide, by decide, rfl⟩

/-- How walks for two offsets into one page end. -/
inductive SameEnd (r : Registers) (a b : UInt32) :
    Except Refusal040 UInt32 → Except Refusal040 UInt32 → Prop
  | refused (e : Refusal040) : SameEnd r a b (.error e) (.error e)
  | resident (entry : UInt32) : SameEnd r a b
      (.ok ((entry &&& ~~~pageOffsetMask040 r) ||| (a &&& pageOffsetMask040 r)))
      (.ok ((entry &&& ~~~pageOffsetMask040 r) ||| (b &&& pageOffsetMask040 r)))

theorem pageEntry040_same (error : UInt32 → Bool) (w : Walk040) (address : UInt32)
    (sideEffects : Bool) (r : Registers) (a b : UInt32) :
    (pageEntry040 error w address fc rw sideEffects (~~~pageOffsetMask040 r)
        (a &&& pageOffsetMask040 r)).1 =
      (pageEntry040 error w address fc rw sideEffects (~~~pageOffsetMask040 r)
        (b &&& pageOffsetMask040 r)).1 ∧
    SameEnd r a b
      (pageEntry040 error w address fc rw sideEffects (~~~pageOffsetMask040 r)
        (a &&& pageOffsetMask040 r)).2
      (pageEntry040 error w address fc rw sideEffects (~~~pageOffsetMask040 r)
        (b &&& pageOffsetMask040 r)).2 := by
  unfold pageEntry040
  dsimp only
  split_ifs
  all_goals first
    | exact ⟨rfl, .refused _⟩
    | exact ⟨rfl, .resident _⟩

theorem walk040_same (hk : r.kind = .m68040) (hab : SamePage (pageBits r) a b)
    (error : UInt32 → Bool) (m : Memory) (sideEffects : Bool) :
    (walk040 r error m a fc rw sideEffects).1 = (walk040 r error m b fc rw sideEffects).1 ∧
      SameEnd r a b (walk040 r error m a fc rw sideEffects).2
        (walk040 r error m b fc rw sideEffects).2 := by
  obtain ⟨hbits, h8, h16, -⟩ := pageBits_040 hk
  have hroot : a >>> 25 = b >>> 25 :=
    shiftRight_congr hab (by show _ ≤ 25; omega) (by decide)
  have hpointer : a >>> 18 = b >>> 18 :=
    shiftRight_congr hab (by show _ ≤ 18; omega) (by decide)
  have hpage : (if largePages r then (a >>> 13) &&& 0x1f else (a >>> 12) &&& 0x3f) =
      if largePages r then (b >>> 13) &&& 0x1f else (b >>> 12) &&& 0x3f := by
    rw [hbits] at hab
    cases hl : largePages r with
    | true =>
      rw [hl, if_pos rfl] at hab
      rw [if_pos rfl, if_pos rfl, shiftRight_congr hab (le_refl _) (by decide)]
    | false =>
      rw [hl, if_neg Bool.false_ne_true] at hab
      rw [if_neg Bool.false_ne_true, if_neg Bool.false_ne_true,
        shiftRight_congr hab (le_refl _) (by decide)]
  unfold walk040
  dsimp only
  rw [hroot, hpointer, hpage]
  generalize tableEntry040 error { memory := m }
    ((if fc &&& 4 ≠ 0 then r.srpAptr else r.urpAptr) + ((b >>> 25) &&& 0x7f) * 4) rw sideEffects = x
  rcases x with ⟨w, e | rootEntry⟩
  · exact ⟨rfl, .refused e⟩
  · dsimp only
    generalize tableEntry040 error w (_ + ((b >>> 18) &&& 0x7f) * 4) rw sideEffects = y
    rcases y with ⟨w', e | pointerEntry⟩
    · exact ⟨rfl, .refused e⟩
    · exact pageEntry040_same error w' _ sideEffects r a b

/-- A transparent translation register matches a page, and its result is the address. -/
theorem pmmuMatchTt040_same (fc : UInt32) (rw : Bool) (h8 : 8 ≤ n.toNat) (h16 : n.toNat < 16)
    (hab : SamePage n a b) (tt : UInt32) :
    (pmmuMatchTt040 a fc tt rw { physicalAddress := a } = none ∧
      pmmuMatchTt040 b fc tt rw { physicalAddress := b } = none) ∨
    ∃ t : TranslationResult,
      pmmuMatchTt040 a fc tt rw { physicalAddress := a } = some { t with physicalAddress := a } ∧
        pmmuMatchTt040 b fc tt rw { physicalAddress := b } = some { t with physicalAddress := b } := by
  have hmask : (0xff000000 : UInt32) &&& ((~~~(tt >>> 16) &&& 0xff) <<< 24) =
      (~~~(tt >>> 16) &&& 0xff) <<< 24 := by
    rw [show (0xff000000 : UInt32) = (0xff : UInt32) <<< 24 from rfl, ← UInt32.shiftLeft_and,
      UInt32.and_comm, UInt32.and_assoc, UInt32.and_self]
  unfold pmmuMatchTt040
  dsimp only
  rw [and_high_congr h8 h16 hab hmask]
  split_ifs
  all_goals first
    | exact .inl ⟨rfl, rfl⟩
    | exact .inr ⟨⟨0, 0, mmu040TtHit ||| mmu040Resident ||| srWriteProtect, 0, true, true⟩, rfl, rfl⟩
    | exact .inr ⟨⟨0, 0, mmu040TtHit ||| mmu040Resident, 0, false, true⟩, rfl, rfl⟩

theorem uniform_transparent (hab : SamePage n a b) (t : TranslationResult) :
    Uniform n a b ({ t with physicalAddress := a } : TranslationResult).address
      ({ t with physicalAddress := b } : TranslationResult).address :=
  uniform_results rfl hab rfl rfl

theorem uniform_resident (hk : r.kind = .m68040) {e e' : Except Refusal040 UInt32}
    (h : SameEnd r a b e e') :
    (∃ refusal, e = .error refusal ∧ e' = .error refusal) ∨
      ∃ p q, e = .ok p ∧ e' = .ok q ∧ Uniform (pageBits r) a b (some p) (some q) := by
  obtain ⟨-, h8, h16, hmask⟩ := pageBits_040 hk
  cases h with
  | refused refusal => exact .inl ⟨refusal, rfl, rfl⟩
  | resident entry =>
    refine .inr ⟨_, _, rfl, rfl, ?_⟩
    rw [hmask]
    have hoffset : ∀ c, ((entry &&& ~~~lowMask (pageBits r)) ||| (c &&& lowMask (pageBits r))) &&&
        lowMask (pageBits r) = c &&& lowMask (pageBits r) := by
      intro c
      rw [UInt32.or_comm, or_and_of_disjoint (frame_and_mask _ _), UInt32.and_assoc,
        UInt32.and_self]
    have hframe : ∀ c, ((entry &&& ~~~lowMask (pageBits r)) ||| (c &&& lowMask (pageBits r))) &&&
        ~~~lowMask (pageBits r) = entry &&& ~~~lowMask (pageBits r) := by
      intro c
      rw [or_and_of_disjoint, UInt32.and_assoc, UInt32.and_self]
      rw [UInt32.and_assoc, UInt32.and_not_self, UInt32.and_zero]
    exact .translated ((frame_inj (by omega) (by omega)).1 ((hframe a).trans (hframe b).symm))
      ((and_lowMask_inj (by omega) (by omega)).1 (hoffset a))
      ((and_lowMask_inj (by omega) (by omega)).1 (hoffset b))

theorem uniform_040 (hk : s.regs.kind = .m68040) (hab : SamePage (pageBits s.regs) a b) :
    Uniform (pageBits s.regs) a b (accessAddress s a fc rw size).2
      (accessAddress s b fc rw size).2 := by
  obtain ⟨-, h8, h16, -⟩ := pageBits_040 hk
  have ht : translates s.regs = true := by
    unfold translates
    rw [hk]
    cases s.regs.pmmuEnabled <;> rfl
  have htranslate : ∀ c, (translateAccess s c fc rw size).2 =
      (pmmuTranslate040 s c fc rw true).2 := by
    intro c
    unfold translateAccess pmmuTranslate
    rw [if_pos hk]
    rfl
  rw [accessAddress_eq ht, accessAddress_eq ht, htranslate, htranslate]
  unfold pmmuTranslate040
  dsimp only
  by_cases hfc : fc &&& 3 = 0
  · rw [if_pos hfc, if_pos hfc]
    exact .faults
  rw [if_neg hfc, if_neg hfc]
  rcases pmmuMatchTt040_same fc rw h8 h16 hab (transparent040 s.regs fc).1 with
    ⟨h0, h0'⟩ | ⟨t, h0, h0'⟩
  · rw [h0, h0']
    rcases pmmuMatchTt040_same fc rw h8 h16 hab (transparent040 s.regs fc).2 with
      ⟨h1, h1'⟩ | ⟨t, h1, h1'⟩
    · rw [h1, h1']
      cases henabled : s.regs.pmmuEnabled with
      | false => exact uniform_identity hab
      | true =>
        have hsame : _ ∧ SameEnd s.regs a b
            (walk040 s.regs s.physicalError s.memory a fc rw true).2
            (walk040 s.regs s.physicalError s.memory b fc rw true).2 :=
          walk040_same hk hab s.physicalError s.memory true
        generalize walk040 s.regs s.physicalError s.memory a fc rw true = x at hsame ⊢
        generalize walk040 s.regs s.physicalError s.memory b fc rw true = y at hsame ⊢
        rcases x with ⟨w, e⟩
        rcases y with ⟨w', e'⟩
        rcases uniform_resident hk hsame.2 with ⟨refusal, he, he'⟩ | ⟨p, q, he, he', hpq⟩
        · obtain rfl : e = .error refusal := he
          obtain rfl : e' = .error refusal := he'
          cases refusal with
          | invalid => exact .faults
          | protectedPage => exact .faults
        · obtain rfl : e = .ok p := he
          obtain rfl : e' = .ok q := he'
          exact hpq
    · rw [h1, h1']
      exact uniform_transparent hab t
  · rw [h0, h0']
    exact uniform_transparent hab t

/-! ## Crossing -/

theorem uniform_access (hr : Translating s.regs) (hab : SamePage (pageBits s.regs) a b) :
    Uniform (pageBits s.regs) a b (accessAddress s a fc rw size).2
      (accessAddress s b fc rw size).2 := by
  rcases hr with hk | ⟨hk, he, htc⟩
  · exact uniform_040 hk hab
  · have hbits : pageBits s.regs = pmmuPageShift s.regs := if_neg (by rw [hk]; decide)
    rw [hbits] at hab ⊢
    exact uniform_030 hk he htc hab

theorem mapM_eq_some {α β : Type} (f : α → Option β) (l : List α) (bytes : List β) :
    l.mapM f = some bytes ↔ l.map f = bytes.map some := by
  induction l generalizing bytes with
  | nil => cases bytes <;> simp
  | cons x l ih =>
    rw [List.mapM_cons]
    cases hx : f x with
    | none => cases bytes <;> simp [hx]
    | some y =>
      cases bytes with
      | nil => cases l.mapM f <;> simp [hx]
      | cons z bytes =>
        simp only [List.map_cons, hx, List.cons.injEq, Option.some.injEq, ← ih bytes]
        cases l.mapM f <;> simp [pure]

/-- The bytes are at consecutive addresses. -/
theorem paged_eq_span {p : UInt32} :
    paged s size a fc rw = some (span p size) ↔ ∀ i < size,
      (accessAddress s (a + UInt32.ofNat i) fc rw size).2 = some (p + UInt32.ofNat i) := by
  rw [paged, mapM_eq_some, span, List.map_map, List.map_inj_left]
  simp only [List.mem_range]
  exact Iff.rfl

/-- The second page continues the first one. -/
def Contiguous (s : M68kMmu) (size k : Nat) (address fc : UInt32) (rw : Bool) : Prop :=
  ∃ p, (accessAddress s address fc rw size).2 = some p ∧
    (accessAddress s (address + UInt32.ofNat k) fc rw size).2 = some (p + UInt32.ofNat k)

theorem page_end {k : Nat} (hn : n.toNat ≤ 32) (hk : a.toNat % 2 ^ n.toNat + k = 2 ^ n.toNat) :
    (a + UInt32.ofNat k).toNat % 2 ^ n.toNat = 0 := by
  have hdvd : 2 ^ n.toNat ∣ 2 ^ 32 := Nat.pow_dvd_pow 2 hn
  rw [UInt32.toNat_add, UInt32.toNat_ofNat', Nat.mod_mod_of_dvd _ hdvd, Nat.add_mod,
    Nat.mod_mod_of_dvd _ hdvd, ← Nat.add_mod, ← Nat.mod_add_mod, hk, Nat.mod_self]

theorem pageBits_size (hr : Translating s.regs) :
    8 ≤ (pageBits s.regs).toNat ∧ (pageBits s.regs).toNat < 16 := by
  rcases hr with hk | ⟨hk, -, htc⟩
  · obtain ⟨-, h8, h16, -⟩ := pageBits_040 hk
    exact ⟨h8, h16⟩
  · have hbits : pageBits s.regs = pmmuPageShift s.regs := if_neg (by rw [hk]; decide)
    rw [hbits]
    exact ⟨htc.size.low, htc.size.high⟩

/-- The bytes of a crossing access are those at its own addresses, and it faults where one of them
    does, exactly if its first page faults or the second page continues the first one. -/
theorem touched_iff (s : M68kMmu) (hr : Translating s.regs) (address fc : UInt32) (rw : Bool)
    (size k : Nat) (hsize : size = 2 ∨ size = 4) (hk : 0 < k ∧ k < size)
    (hcross : address.toNat % 2 ^ (pageBits s.regs).toNat + k = 2 ^ (pageBits s.regs).toNat) :
    touched s size address fc rw = paged s size address fc rw ↔
      (accessAddress s address fc rw size).2 = none ∨ Contiguous s size k address fc rw := by
  obtain ⟨h8, h16⟩ := pageBits_size hr
  have hpow : 2 ^ 8 ≤ 2 ^ (pageBits s.regs).toNat := Nat.pow_le_pow_right (by decide) h8
  have hfirst : ∀ i < k, (accessAddress s (address + UInt32.ofNat i) fc rw size).2 =
      (accessAddress s address fc rw size).2.map fun p => p + UInt32.ofNat i := by
    intro i hi
    exact (uniform_access hr (samePage_add (by omega) (by omega)).1).add (by omega) (by omega)
  have hsecond : ∀ i, k ≤ i → i < size →
      (accessAddress s (address + UInt32.ofNat i) fc rw size).2 =
        (accessAddress s (address + UInt32.ofNat k) fc rw size).2.map fun p =>
          p + UInt32.ofNat (i - k) := by
    intro i hki hi
    have hend := page_end (n := pageBits s.regs) (a := address) (by omega) hcross
    have hadd : address + UInt32.ofNat i =
        address + UInt32.ofNat k + UInt32.ofNat (i - k) := by
      rw [UInt32.add_assoc, ← UInt32.ofNat_add, Nat.add_sub_cancel' hki]
    have hroom : (address + UInt32.ofNat k).toNat % 2 ^ (pageBits s.regs).toNat + (i - k) <
        2 ^ (pageBits s.regs).toNat := by omega
    rw [hadd]
    exact (uniform_access hr (samePage_add (by omega) hroom).1).add (by omega) hroom
  cases hp : (accessAddress s address fc rw size).2 with
  | none =>
    have htouched : touched s size address fc rw = none := by rw [touched, hp]; rfl
    have hzero := hfirst 0 hk.1
    rw [hp] at hzero
    rw [htouched]
    refine ⟨fun _ => .inl rfl, fun _ => ?_⟩
    cases hbytes : paged s size address fc rw with
    | none => rfl
    | some bytes =>
      rw [paged, mapM_eq_some] at hbytes
      have hmem : none ∈ bytes.map some := by
        rw [← hbytes]
        exact List.mem_map.2 ⟨0, List.mem_range.2 (by omega), hzero⟩
      obtain ⟨x, -, hx⟩ := List.mem_map.1 hmem
      cases hx
  | some p =>
    have htouched : touched s size address fc rw = some (span p size) := by rw [touched, hp]; rfl
    rw [htouched, eq_comm, paged_eq_span]
    constructor
    · intro h
      exact .inr ⟨p, hp, h k hk.2⟩
    · rintro (h | ⟨q, hq, hcont⟩)
      · cases h
      · rw [hp] at hq
        obtain rfl := Option.some.inj hq
        intro i hi
        by_cases hik : i < k
        · rw [hfirst i hik, hp]
          rfl
        · rw [hsecond i (by omega) hi, hcont]
          show some (p + UInt32.ofNat k + UInt32.ofNat (i - k)) = _
          rw [UInt32.add_assoc, ← UInt32.ofNat_add, Nat.add_sub_cancel' (by omega)]

/-- Of an access whose first `k` bytes are at the end of a page: a read gives the value of the
    bytes that it touches, a write changes them, and they are those at its own addresses exactly if
    its first page faults or the second page continues the first one. -/
theorem crossing_iff (s : M68kMmu) (hr : Translating s.regs) (address fc : UInt32) (rw : Bool)
    (size k : Nat) (hsize : size = 2 ∨ size = 4) (hk : 0 < k ∧ k < size)
    (hcross : address.toNat % 2 ^ (pageBits s.regs).toNat + k = 2 ^ (pageBits s.regs).toNat) :
    (touched s size address fc rw = paged s size address fc rw ↔
      (accessAddress s address fc rw size).2 = none ∨ Contiguous s size k address fc rw) ∧
    (readFc s size address fc).2 =
      (touched s size address fc true).map (compose (readFc s size address fc).1.memory) ∧
    ∀ value, (writeFc s size address fc value).2 = (touched s size address fc false).isSome ∧
      (writeFc s size address fc value).1.memory =
        match touched s size address fc false with
        | none => (accessAddress s address fc false size).1.memory
        | some bytes => store (accessAddress s address fc false size).1.memory bytes value :=
  ⟨touched_iff s hr address fc rw size k hsize hk hcross, readFc_touched s size address fc,
    writeFc_touched s size address fc⟩

/-- Two pages of 32 KiB whose frames are not adjacent. -/
def apart : M68kMmu :=
  { smallTables with
    memory := write32 (write32 (fun _ => 0) 0x1000 0x00500001) 0x1004 0x00700001 }

theorem crossing_iff_apart :
    (touched apart 4 0x7ffe 5 true = paged apart 4 0x7ffe 5 true ↔
      (accessAddress apart 0x7ffe 5 true 4).2 = none ∨ Contiguous apart 4 2 0x7ffe 5 true) ∧
    (readFc apart 4 0x7ffe 5).2 =
      (touched apart 4 0x7ffe 5 true).map (compose (readFc apart 4 0x7ffe 5).1.memory) :=
  have h := crossing_iff apart (.inr ⟨rfl, rfl, by decide, by decide⟩) 0x7ffe 5 true 4 2 (.inr rfl)
    (by decide) (by decide)
  ⟨h.1, h.2.1⟩

/-- The last two bytes of a long word at the end of the first page are those behind its frame. -/
theorem crossing_apart :
    touched apart 4 0x7ffe 5 true = some [0x507ffe, 0x507fff, 0x508000, 0x508001] ∧
      paged apart 4 0x7ffe 5 true = some [0x507ffe, 0x507fff, 0x700000, 0x700001] ∧
      touched smallTables 2 0x7fff 5 true = some [0x507fff, 0x508000] ∧
      paged smallTables 2 0x7fff 5 true = none := by
  decide +kernel

end

end CuteMac.Cpu
