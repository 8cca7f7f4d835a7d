/-
  The Used and Modified bits that the 68040 leaves in its tables.

  * `tableCheck040`, `pageCheck040`: what a descriptor allows;
  * `Ending040`, `ending040`: where a walk ends;
  * `trail040`: the descriptors that a walk reads;
  * `walk040_eq_ending`: a walk with side effects, in terms of the words that it
    finds and the bits that it sets;
  * `Consistent040`, `translate040_consistent`: the translation with side effects
    is the one without, it repeats itself, and the bits are all that it changes.

  Descriptors that a walk ends before are not read and need not be words of their
  own.
-/
import CuteMac.Cpu.DebugTranslate

namespace CuteMac.Cpu

open ByteMemory Pages

/-! ## Descriptors -/

/-- Why a root or a pointer descriptor ends a walk. -/
def tableCheck040 (error : Bool) (entry : UInt32) (rw : Bool) : Option Refusal040 :=
  if error ∨ entry &&& 2 = 0 then some .invalid
  else if !rw ∧ entry &&& dfWp ≠ 0 then some .protectedPage
  else none

/-- Why a page descriptor ends a walk. -/
def pageCheck040 (error : Bool) (entry fc : UInt32) (rw : Bool) : Option Refusal040 :=
  if error ∨ entry &&& 1 = 0 then some .invalid
  else if (!rw ∧ entry &&& dfWp ≠ 0) ∨ (fc &&& 4 = 0 ∧ entry &&& mmu040Supervisor ≠ 0) then
    some .protectedPage
  else none

/-- The status of a physical access. -/
def report (error : Bool) : UInt16 := flag error (srBusError ||| srInvalid)

theorem report_busError (error : Bool) : report error &&& srBusError ≠ 0 ↔ error = true := by
  cases error <;> decide

theorem report_or (error error' : Bool) : report error ||| report error' = report (error || error') := by
  cases error <;> cases error' <;> rfl

/-- The bits that an access sets in the descriptor of its page. -/
def pageMarks (rw : Bool) : UInt32 := dfUsed ||| if rw then 0 else dfModified

section
variable {error : UInt32 → Bool} {w : Walk040} {address fc x y : UInt32} {rw sideEffects : Bool}

theorem reported_eq (hw : w.tmpSr = 0) : w.reported error address = report (error address) := by
  rw [Walk040.reported, hw, UInt16.zero_or]
  rfl

/-- Marks are bits that are set. -/
theorem mark_eq (hw : w.tmpSr = 0) (herror : error address = false) (bits : UInt32) :
    w.mark error sideEffects address (read32 w.memory address) (read32 w.memory address ||| bits) =
      { w with memory := if sideEffects then setBits w.memory address bits else w.memory } := by
  unfold Walk040.mark setBits
  cases sideEffects with
  | false => simp
  | true =>
    by_cases hset : read32 w.memory address ||| bits = read32 w.memory address
    · simp [hset]
    · have hreport : w.reported error address = w.tmpSr := by
        rw [reported_eq hw, herror, hw]
        rfl
      simp [hset, Walk040.write, herror, hreport]

theorem tableEntry040_eq (error : UInt32 → Bool) (w : Walk040) (address : UInt32)
    (rw sideEffects : Bool) (hw : w.tmpSr = 0) :
    tableEntry040 error w address rw sideEffects =
      match tableCheck040 (error address) (read32 w.memory address) rw with
      | some e => ({ w with tmpSr := report (error address) }, .error e)
      | none =>
        ({ w with memory := if sideEffects then setBits w.memory address dfUsed else w.memory },
          .ok (read32 w.memory address ||| if sideEffects then dfUsed else 0)) := by
  unfold tableEntry040 tableCheck040
  rw [show w.read error address =
    (read32 w.memory address, { w with tmpSr := w.reported error address }) from rfl]
  dsimp only
  rw [reported_eq hw]
  simp only [report_busError]
  by_cases hinvalid : error address = true ∨ read32 w.memory address &&& 2 = 0
  · rw [if_pos hinvalid, if_pos hinvalid]
  · rw [if_neg hinvalid, if_neg hinvalid]
    have herror : error address = false := by
      rw [not_or] at hinvalid
      exact Bool.eq_false_iff.2 hinvalid.1
    have hsame : ({ w with tmpSr := report (error address) } : Walk040) = w := by
      rw [herror, show report false = w.tmpSr from hw.symm]
    rw [hsame]
    by_cases hprotected : (!rw) = true ∧ read32 w.memory address &&& dfWp ≠ 0
    · rw [if_pos hprotected, if_pos hprotected]
    · rw [if_neg hprotected, if_neg hprotected, mark_eq hw herror]

/-- The word of the page descriptor; an indirect one in its place is invalid. -/
def pageWord (m : Memory) (target : UInt32) : UInt32 :=
  if read32 m target &&& 3 = 2 then 0 else read32 m target

/-- Where the page descriptor is that an entry of a page table stands for. -/
def pageTarget (m : Memory) (page : UInt32) : UInt32 :=
  if read32 m page &&& 3 = 2 then read32 m page &&& ~~~3 else page

theorem pageWord040_of_page (hw : w.tmpSr = 0) :
    pageWord040 error w address =
      (pageTarget w.memory address, pageWord w.memory (pageTarget w.memory address),
        report (error address || error (pageTarget w.memory address))) := by
  unfold pageWord040 pageTarget pageWord
  dsimp only
  rw [reported_eq hw]
  by_cases hindirect : read32 w.memory address &&& 3 = 2
  · rw [if_pos hindirect, if_pos hindirect]
    congr 2
    exact report_or (error address) (error (read32 w.memory address &&& ~~~3))
  · rw [if_neg hindirect, if_neg hindirect, if_neg hindirect, Bool.or_self]

theorem pageWord_of_resident {m : Memory} (h : pageWord m x &&& 1 ≠ 0) : pageWord m x = read32 m x := by
  unfold pageWord at h ⊢
  by_cases hindirect : read32 m x &&& 3 = 2
  · rw [if_pos hindirect] at h
    exact absurd (UInt32.zero_and ..) h
  · exact if_neg hindirect

theorem pageEntry040_eq_check (error : UInt32 → Bool) (w : Walk040) (address fc : UInt32)
    (rw sideEffects : Bool) (hw : w.tmpSr = 0) (frameMask pageOffset : UInt32) :
    pageEntry040 error w address fc rw sideEffects frameMask pageOffset =
      let target := pageTarget w.memory address
      let failed := error address || error target
      match pageCheck040 failed (pageWord w.memory target) fc rw with
      | some e => ({ w with tmpSr := report failed }, .error e)
      | none =>
        ({ w with
            memory := if sideEffects then setBits w.memory target (pageMarks rw) else w.memory },
          .ok ((pageWord w.memory target &&& frameMask) ||| pageOffset)) := by
  rw [pageEntry040_eq, pageWord040_of_page hw]
  dsimp only
  generalize pageTarget w.memory address = target
  unfold pageCheck040
  simp only [report_busError]
  by_cases hinvalid : (error address || error target) = true ∨ pageWord w.memory target &&& 1 = 0
  · rw [if_pos hinvalid, if_pos hinvalid]
  · rw [if_neg hinvalid, if_neg hinvalid]
    rw [not_or, Bool.not_eq_true, Bool.or_eq_false_iff] at hinvalid
    obtain ⟨⟨herror, htarget⟩, hresident⟩ := hinvalid
    have hsame : ({ w with tmpSr := report (error address || error target) } : Walk040) = w := by
      rw [herror, htarget, show report (false || false) = w.tmpSr from hw.symm]
    rw [hsame, pageWord_of_resident hresident]
    by_cases hprotected : ((!rw) = true ∧ read32 w.memory target &&& dfWp ≠ 0) ∨
        (fc &&& 4 = 0 ∧ read32 w.memory target &&& mmu040Supervisor ≠ 0)
    · rw [if_pos hprotected, if_pos hprotected]
    · rw [if_neg hprotected, if_neg hprotected, UInt32.or_assoc]
      rw [show (dfUsed ||| if rw then 0 else dfModified) = pageMarks rw from rfl, mark_eq hw htarget]

end

/-! ## Where a walk ends -/

inductive Ending040 where
  | root (e : Refusal040)
  | pointer (e : Refusal040)
  | page (e : Refusal040)
  | resident

section
variable (r : Registers) (error : UInt32 → Bool) (m : Memory) (logical fc : UInt32) (rw : Bool)

def rootCheck : Option Refusal040 :=
  let entries := entries040 r m logical fc
  tableCheck040 (error entries.root) (read32 m entries.root) rw

def pointerCheck : Option Refusal040 :=
  let entries := entries040 r m logical fc
  tableCheck040 (error entries.pointer) (read32 m entries.pointer) rw

def pageFailed : Bool :=
  let entries := entries040 r m logical fc
  error entries.page || error entries.target

def targetCheck : Option Refusal040 :=
  let entries := entries040 r m logical fc
  pageCheck040 (pageFailed r error m logical fc) (pageWord m entries.target) fc rw

/-- The end of a walk, from the words that are in memory when it starts. -/
def ending040 : Ending040 :=
  match rootCheck r error m logical fc rw with
  | some e => .root e
  | none =>
    match pointerCheck r error m logical fc rw with
    | some e => .pointer e
    | none =>
      match targetCheck r error m logical fc rw with
      | some e => .page e
      | none => .resident

/-- The status of the last physical access, and the end of the walk. -/
def outcome040 : UInt16 × Except Refusal040 UInt32 :=
  let entries := entries040 r m logical fc
  match ending040 r error m logical fc rw with
  | .root e => (report (error entries.root), .error e)
  | .pointer e => (report (error entries.pointer), .error e)
  | .page e => (report (pageFailed r error m logical fc), .error e)
  | .resident =>
    (0, .ok ((pageWord m entries.target &&& ~~~pageOffsetMask040 r) |||
      (logical &&& pageOffsetMask040 r)))

end

namespace Entries040

variable (entries : Entries040)

def all : List UInt32 :=
  if entries.target = entries.page then [entries.root, entries.pointer, entries.page]
  else [entries.root, entries.pointer, entries.page, entries.target]

/-- The descriptors that a walk reads. -/
def trail : Ending040 → List UInt32
  | .root _ => [entries.root]
  | .pointer _ => [entries.root, entries.pointer]
  | .page _ | .resident => entries.all

/-- The memory after a walk with side effects. -/
def marked (m : Memory) (rw : Bool) : Ending040 → Memory
  | .root _ => m
  | .pointer _ => setBits m entries.root dfUsed
  | .page _ => setBits (setBits m entries.root dfUsed) entries.pointer dfUsed
  | .resident =>
    setBits (setBits (setBits m entries.root dfUsed) entries.pointer dfUsed) entries.target
      (pageMarks rw)

end Entries040

section
variable {r : Registers} {error : UInt32 → Bool} {m m' : Memory} {logical fc x y : UInt32}
  {rw : Bool}

theorem Apart.read32_setBits (h : Apart x y) (m : Memory) (bits : UInt32) :
    ByteMemory.read32 (ByteMemory.setBits m x bits) y = ByteMemory.read32 m y :=
  compose_congr fun b hb => setBits_of_notMem m bits fun hx => h b hx hb

theorem ending040_root {e : Refusal040} (h : rootCheck r error m logical fc rw = some e) :
    ending040 r error m logical fc rw = .root e := by
  rw [ending040, h]

theorem ending040_pointer {e : Refusal040} (h : rootCheck r error m logical fc rw = none)
    (h' : pointerCheck r error m logical fc rw = some e) :
    ending040 r error m logical fc rw = .pointer e := by
  rw [ending040, h, h']

theorem ending040_target (h : rootCheck r error m logical fc rw = none)
    (h' : pointerCheck r error m logical fc rw = none) :
    ending040 r error m logical fc rw =
      match targetCheck r error m logical fc rw with
      | some e => .page e
      | none => .resident := by
  rw [ending040, h, h']

/-- The entries that a walk gets to are words of their own. -/
structure Separate040 (r : Registers) (error : UInt32 → Bool) (m : Memory) (logical fc : UInt32)
    (rw : Bool) : Prop where
  pointer : rootCheck r error m logical fc rw = none →
    Apart (entries040 r m logical fc).root (entries040 r m logical fc).pointer
  page : rootCheck r error m logical fc rw = none → pointerCheck r error m logical fc rw = none →
    ∀ x ∈ [(entries040 r m logical fc).page, (entries040 r m logical fc).target],
      Apart (entries040 r m logical fc).root x ∧ Apart (entries040 r m logical fc).pointer x
  target : rootCheck r error m logical fc rw = none →
    pointerCheck r error m logical fc rw = none →
    (entries040 r m logical fc).target ≠ (entries040 r m logical fc).page →
    Apart (entries040 r m logical fc).page (entries040 r m logical fc).target

theorem separate_of_trail
    (h : ((entries040 r m logical fc).trail (ending040 r error m logical fc rw)).Pairwise Apart) :
    Separate040 r error m logical fc rw := by
  have htrail : rootCheck r error m logical fc rw = none →
      pointerCheck r error m logical fc rw = none →
      (entries040 r m logical fc).trail (ending040 r error m logical fc rw) =
        (entries040 r m logical fc).all := by
    intro hroot hpointer
    rw [ending040_target hroot hpointer]
    cases targetCheck r error m logical fc rw <;> rfl
  refine ⟨fun hroot => ?_, fun hroot hpointer => ?_, fun hroot hpointer hne => ?_⟩
  · cases hpointer : pointerCheck r error m logical fc rw with
    | some e =>
      rw [ending040_pointer hroot hpointer] at h
      exact List.rel_of_pairwise_cons h (List.mem_singleton_self _)
    | none =>
      rw [htrail hroot hpointer, Entries040.all] at h
      split_ifs at h <;> exact List.rel_of_pairwise_cons h (List.mem_cons_self ..)
  · rw [htrail hroot hpointer, Entries040.all] at h
    split_ifs at h with heq
    · simp_all
    · simp_all
  · rw [htrail hroot hpointer, Entries040.all, if_neg hne] at h
    simp_all

theorem pointerAddress040_flag (sideEffects : Bool) (entry logical : UInt32) :
    pointerAddress040 (entry ||| if sideEffects then dfUsed else 0) logical =
      pointerAddress040 entry logical := by
  cases sideEffects with
  | false => rw [if_neg Bool.false_ne_true, UInt32.or_zero]
  | true => exact pointerAddress040_used ..

theorem pageAddress040_flag (sideEffects : Bool) (r : Registers) (entry logical : UInt32) :
    pageAddress040 r (entry ||| if sideEffects then dfUsed else 0) logical =
      pageAddress040 r entry logical := by
  cases sideEffects with
  | false => rw [if_neg Bool.false_ne_true, UInt32.or_zero]
  | true => exact pageAddress040_used ..

/-- A walk finds what was there before it, whether it leaves marks or not. -/
theorem walk040_eq_outcome (sideEffects : Bool)
    (hsep : sideEffects = true → Separate040 r error m logical fc rw) :
    walk040 r error m logical fc rw sideEffects =
      (⟨if sideEffects then
            (entries040 r m logical fc).marked m rw (ending040 r error m logical fc rw)
          else m,
        (outcome040 r error m logical fc rw).1⟩, (outcome040 r error m logical fc rw).2) := by
  have hroot := tableEntry040_eq error { memory := m } (entries040 r m logical fc).root rw sideEffects
    rfl
  unfold outcome040
  cases hr : rootCheck r error m logical fc rw with
  | some e =>
    unfold rootCheck at hr
    dsimp only at hr hroot
    rw [hr] at hroot
    rw [walk040_root_error hroot, ending040_root hr]
    cases sideEffects <;> rfl
  | none =>
    have hr' := hr
    unfold rootCheck at hr'
    dsimp only at hr' hroot
    rw [hr'] at hroot
    generalize hm₁ : (if sideEffects = true then setBits m (entries040 r m logical fc).root dfUsed
      else m) = m₁ at hroot
    have hword : read32 m₁ (entries040 r m logical fc).pointer =
        read32 m (entries040 r m logical fc).pointer := by
      rw [← hm₁]
      cases sideEffects with
      | false => rfl
      | true => exact ((hsep rfl).pointer hr).read32_setBits ..
    have hpointer := tableEntry040_eq error { memory := m₁ } (entries040 r m logical fc).pointer rw
      sideEffects rfl
    dsimp only at hpointer
    rw [hword] at hpointer
    have haddress : pointerAddress040 (read32 m (entries040 r m logical fc).root |||
        if sideEffects = true then dfUsed else 0) logical = (entries040 r m logical fc).pointer :=
      pointerAddress040_flag ..
    cases hp : pointerCheck r error m logical fc rw with
    | some e =>
      have hp' := hp
      unfold pointerCheck at hp'
      dsimp only at hp'
      rw [hp'] at hpointer
      rw [walk040_pointer_error hroot (by rw [haddress]; exact hpointer), ending040_pointer hr hp,
        ← hm₁]
      rfl
    | none =>
      have hp' := hp
      unfold pointerCheck at hp'
      dsimp only at hp'
      rw [hp'] at hpointer
      generalize hm₂ : (if sideEffects = true then
        setBits m₁ (entries040 r m logical fc).pointer dfUsed else m₁) = m₂ at hpointer
      -- the entries of the page have not been touched by the marks before them
      have hkept : ∀ x ∈ [(entries040 r m logical fc).page, (entries040 r m logical fc).target],
          read32 m₂ x = read32 m x := by
        intro x hx
        rw [← hm₂, ← hm₁]
        cases sideEffects with
        | false => rfl
        | true =>
          obtain ⟨h1, h2⟩ := (hsep rfl).page hr hp x hx
          exact (h2.read32_setBits ..).trans (h1.read32_setBits ..)
      have hpage := hkept _ (List.mem_cons_self ..)
      have htarget := hkept _ (List.mem_cons_of_mem _ (List.mem_singleton_self _))
      have haddress' : pageAddress040 r (read32 m (entries040 r m logical fc).pointer |||
          if sideEffects = true then dfUsed else 0) logical = (entries040 r m logical fc).page :=
        pageAddress040_flag ..
      have htargetOf : pageTarget m₂ (entries040 r m logical fc).page =
          (entries040 r m logical fc).target := by
        unfold pageTarget
        rw [hpage]
        rfl
      have hentry := pageEntry040_eq_check error { memory := m₂ } (entries040 r m logical fc).page fc
        rw sideEffects rfl (~~~pageOffsetMask040 r) (logical &&& pageOffsetMask040 r)
      have hword' : pageWord m₂ (entries040 r m logical fc).target =
          pageWord m (entries040 r m logical fc).target := by
        unfold pageWord
        rw [htarget]
      dsimp only at hentry
      rw [htargetOf, hword'] at hentry
      rw [walk040_page hroot (by rw [haddress]; exact hpointer), haddress', hentry,
        ending040_target hr hp]
      cases ht : targetCheck r error m logical fc rw with
      | some e =>
        have ht' := ht
        unfold targetCheck pageFailed at ht'
        dsimp only at ht'
        rw [ht', ← hm₂, ← hm₁]
        cases sideEffects <;> simp [Entries040.marked, pageFailed]
      | none =>
        have ht' := ht
        unfold targetCheck pageFailed at ht'
        dsimp only at ht'
        rw [ht', ← hm₂, ← hm₁]
        cases sideEffects <;> simp [Entries040.marked]

/-! ## The same walk again -/

theorem Apart.symm (h : Apart x y) : Apart y x := fun b hb hx => h b hx hb

theorem tableCheck040_used (error : Bool) (entry : UInt32) (rw : Bool) :
    tableCheck040 error (entry ||| dfUsed) rw = tableCheck040 error entry rw := by
  unfold tableCheck040
  rw [or_and_of_disjoint (show dfUsed &&& 2 = 0 by decide),
    or_and_of_disjoint (show dfUsed &&& dfWp = 0 by decide)]

theorem pageMarks_and {mask : UInt32} (h : dfUsed &&& mask = 0) (h' : dfModified &&& mask = 0)
    (rw : Bool) : pageMarks rw &&& mask = 0 := by
  unfold pageMarks
  cases rw with
  | false => rw [if_neg Bool.false_ne_true, or_and_of_disjoint h', h]
  | true => rw [if_pos rfl, UInt32.or_zero, h]

theorem marks_and {mask : UInt32} (h : dfUsed &&& mask = 0) (h' : dfModified &&& mask = 0)
    (entry : UInt32) (rw : Bool) : (entry ||| pageMarks rw) &&& mask = entry &&& mask :=
  or_and_of_disjoint (pageMarks_and h h' rw)

theorem pageCheck040_marks (error : Bool) (entry fc : UInt32) (rw rw' : Bool) :
    pageCheck040 error (entry ||| pageMarks rw') fc rw = pageCheck040 error entry fc rw := by
  unfold pageCheck040
  rw [marks_and (by decide) (by decide), marks_and (by decide) (by decide),
    marks_and (by decide) (by decide)]

/-- Marks in the root entry do not change where it leads. -/
theorem root_again (error : UInt32 → Bool) (rw : Bool)
    (h : read32 m' (entries040 r m logical fc).root ||| dfUsed =
      read32 m (entries040 r m logical fc).root ||| dfUsed) :
    rootCheck r error m' logical fc rw = rootCheck r error m logical fc rw ∧
      (entries040 r m' logical fc).pointer = (entries040 r m logical fc).pointer := by
  constructor
  · show tableCheck040 _ (read32 m' (entries040 r m logical fc).root) _ = _
    rw [← tableCheck040_used, h, tableCheck040_used]
    rfl
  · show pointerAddress040 (read32 m' (entries040 r m logical fc).root) _ = _
    rw [← pointerAddress040_used, h, pointerAddress040_used]
    rfl

theorem pointer_again (error : UInt32 → Bool) (rw : Bool)
    (hpointer : (entries040 r m' logical fc).pointer = (entries040 r m logical fc).pointer)
    (h : read32 m' (entries040 r m logical fc).pointer ||| dfUsed =
      read32 m (entries040 r m logical fc).pointer ||| dfUsed) :
    pointerCheck r error m' logical fc rw = pointerCheck r error m logical fc rw ∧
      (entries040 r m' logical fc).page = (entries040 r m logical fc).page := by
  constructor
  · unfold pointerCheck
    dsimp only
    rw [hpointer, ← tableCheck040_used, h, tableCheck040_used]
  · show pageAddress040 r (read32 m' (entries040 r m' logical fc).pointer) _ = _
    rw [hpointer, ← pageAddress040_used, h, pageAddress040_used]
    rfl

theorem pageWord_marks {bits : UInt32} (hbits : bits = 0 ∨ bits = pageMarks rw)
    (hword : read32 m' x = read32 m x ||| bits) :
    pageWord m' x = pageWord m x ∨ pageWord m' x = pageWord m x ||| pageMarks rw := by
  unfold pageWord
  rcases hbits with rfl | rfl
  · rw [hword, UInt32.or_zero]
    exact .inl rfl
  · rw [hword, marks_and (by decide) (by decide)]
    by_cases hindirect : read32 m x &&& 3 = 2
    · rw [if_pos hindirect, if_pos hindirect]
      exact .inl rfl
    · rw [if_neg hindirect, if_neg hindirect]
      exact .inr rfl

theorem marks_frame (r : Registers) (entry : UInt32) (rw : Bool) :
    (entry ||| pageMarks rw) &&& ~~~pageOffsetMask040 r = entry &&& ~~~pageOffsetMask040 r := by
  unfold pageOffsetMask040
  cases largePages r <;> exact marks_and (by decide) (by decide) entry rw

theorem target_again (error : UInt32 → Bool)
    (hpage : (entries040 r m' logical fc).page = (entries040 r m logical fc).page)
    (h : pageTarget m' (entries040 r m logical fc).page = (entries040 r m logical fc).target)
    {bits : UInt32} (hbits : bits = 0 ∨ bits = pageMarks rw)
    (hword : read32 m' (entries040 r m logical fc).target =
      read32 m (entries040 r m logical fc).target ||| bits) :
    (entries040 r m' logical fc).target = (entries040 r m logical fc).target ∧
      targetCheck r error m' logical fc rw = targetCheck r error m logical fc rw ∧
      pageWord m' (entries040 r m logical fc).target &&& ~~~pageOffsetMask040 r =
        pageWord m (entries040 r m logical fc).target &&& ~~~pageOffsetMask040 r := by
  have htarget : (entries040 r m' logical fc).target = (entries040 r m logical fc).target := by
    show pageTarget m' (entries040 r m' logical fc).page = _
    rw [hpage, h]
  unfold targetCheck pageFailed
  dsimp only
  rw [htarget, hpage]
  rcases pageWord_marks hbits hword with hsame | hmarked
  · rw [hsame]
    exact ⟨rfl, rfl, rfl⟩
  · rw [hmarked, pageCheck040_marks, marks_frame]
    exact ⟨rfl, rfl, rfl⟩

/-- A walk to the page finds the same where the words of its descriptors differ in marks alone. -/
theorem again_of_words (hsep : Separate040 r error m logical fc rw)
    (hr : rootCheck r error m logical fc rw = none)
    (hp : pointerCheck r error m logical fc rw = none)
    (hroot : read32 m' (entries040 r m logical fc).root ||| dfUsed =
      read32 m (entries040 r m logical fc).root ||| dfUsed)
    (hpointer : read32 m' (entries040 r m logical fc).pointer ||| dfUsed =
      read32 m (entries040 r m logical fc).pointer ||| dfUsed)
    (hpage : pageTarget m' (entries040 r m logical fc).page = (entries040 r m logical fc).target)
    {bits : UInt32} (hbits : bits = 0 ∨ bits = pageMarks rw)
    (htarget : read32 m' (entries040 r m logical fc).target =
      read32 m (entries040 r m logical fc).target ||| bits) :
    outcome040 r error m' logical fc rw = outcome040 r error m logical fc rw ∧
      Separate040 r error m' logical fc rw := by
  obtain ⟨hr', hpointer'⟩ := root_again error rw hroot
  obtain ⟨hp', hpage'⟩ := pointer_again error rw hpointer' hpointer
  obtain ⟨htarget', ht', hframe⟩ := target_again error hpage' hpage hbits htarget
  have hentries : entries040 r m' logical fc = entries040 r m logical fc := by
    cases he : entries040 r m' logical fc
    cases he' : entries040 r m logical fc
    simp_all only [Entries040.mk.injEq, and_true]
    have h1 := congrArg Entries040.root he
    have h2 := congrArg Entries040.root he'
    exact h1.symm.trans h2
  constructor
  · unfold outcome040
    rw [ending040_target hr hp, ending040_target (hr'.trans hr) (hp'.trans hp), ht']
    unfold pageFailed
    rw [hentries]
    cases targetCheck r error m logical fc rw with
    | some e => rfl
    | none =>
      dsimp only
      rw [hframe]
  · have h1 := hsep.pointer hr
    have h2 := hsep.page hr hp
    have h3 := hsep.target hr hp
    rw [← hentries] at h1 h2 h3
    exact ⟨fun _ => h1, fun _ _ => h2, fun _ _ => h3⟩

theorem resident_of_check {error : Bool} {entry : UInt32}
    (h : pageCheck040 error entry fc rw = none) : entry &&& 1 ≠ 0 := by
  unfold pageCheck040 at h
  intro h0
  rw [if_pos (.inr h0)] at h
  cases h

/-- A resident page descriptor is not an indirect one. -/
theorem direct_of_resident (h : targetCheck r error m logical fc rw = none) :
    read32 m (entries040 r m logical fc).target &&& 3 ≠ 2 := by
  have hresident := resident_of_check h
  unfold pageWord at hresident
  intro hindirect
  rw [if_pos hindirect] at hresident
  exact hresident (UInt32.zero_and ..)

/-- The words of the descriptors when those of the tables have been marked. -/
theorem tables_words (hsep : Separate040 r error m logical fc rw)
    (hr : rootCheck r error m logical fc rw = none)
    (hp : pointerCheck r error m logical fc rw = none) {m₂ : Memory}
    (hm₂ : m₂ = setBits (setBits m (entries040 r m logical fc).root dfUsed)
      (entries040 r m logical fc).pointer dfUsed) :
    read32 m₂ (entries040 r m logical fc).root =
        read32 m (entries040 r m logical fc).root ||| dfUsed ∧
      read32 m₂ (entries040 r m logical fc).pointer =
        read32 m (entries040 r m logical fc).pointer ||| dfUsed ∧
      ∀ x ∈ [(entries040 r m logical fc).page, (entries040 r m logical fc).target],
        read32 m₂ x = read32 m x := by
  have hseparate := hsep.pointer hr
  refine ⟨?_, ?_, fun x hx => ?_⟩
  · rw [hm₂, hseparate.symm.read32_setBits, read32_setBits]
  · rw [hm₂, read32_setBits, hseparate.read32_setBits]
  · obtain ⟨h1, h2⟩ := hsep.page hr hp x hx
    rw [hm₂, h2.read32_setBits, h1.read32_setBits]

/-- After a walk with side effects its descriptors say what they said before it. -/
theorem marked_again (hsep : Separate040 r error m logical fc rw)
    (hm' : m' = (entries040 r m logical fc).marked m rw (ending040 r error m logical fc rw)) :
    outcome040 r error m' logical fc rw = outcome040 r error m logical fc rw ∧
      Separate040 r error m' logical fc rw := by
  cases hr : rootCheck r error m logical fc rw with
  | some e =>
    rw [ending040_root hr] at hm'
    obtain rfl : m' = m := hm'
    exact ⟨rfl, hsep⟩
  | none =>
    have hseparate := hsep.pointer hr
    cases hp : pointerCheck r error m logical fc rw with
    | some e =>
      rw [ending040_pointer hr hp] at hm'
      have hrootWord : read32 m' (entries040 r m logical fc).root ||| dfUsed =
          read32 m (entries040 r m logical fc).root ||| dfUsed := by
        rw [hm', Entries040.marked, read32_setBits, UInt32.or_assoc, UInt32.or_self]
      have hpointerWord : read32 m' (entries040 r m logical fc).pointer ||| dfUsed =
          read32 m (entries040 r m logical fc).pointer ||| dfUsed := by
        rw [hm', Entries040.marked, hseparate.read32_setBits]
      obtain ⟨hr', hpointer⟩ := root_again error rw hrootWord
      obtain ⟨hp', hpage⟩ := pointer_again error rw hpointer hpointerWord
      have hroot : (entries040 r m' logical fc).root = (entries040 r m logical fc).root := rfl
      constructor
      · unfold outcome040
        rw [ending040_pointer hr hp, ending040_pointer (hr'.trans hr) (hp'.trans hp)]
        dsimp only
        rw [hpointer]
      · refine ⟨fun _ => by rw [hroot, hpointer]; exact hseparate, fun _ h => ?_, fun _ h => ?_⟩
        · rw [hp', hp] at h; cases h
        · rw [hp', hp] at h; cases h
    | none =>
      obtain ⟨hrootTarget, hpointerTarget⟩ :=
        hsep.page hr hp _ (List.mem_cons_of_mem _ (List.mem_singleton_self _))
      generalize hm₂ : setBits (setBits m (entries040 r m logical fc).root dfUsed)
        (entries040 r m logical fc).pointer dfUsed = m₂
      obtain ⟨hroot₂, hpointer₂, hwords₂⟩ := tables_words hsep hr hp hm₂.symm
      have hpage₂ := hwords₂ _ (List.mem_cons_self ..)
      have htarget₂ := hwords₂ _ (List.mem_cons_of_mem _ (List.mem_singleton_self _))
      rw [ending040_target hr hp] at hm'
      cases ht : targetCheck r error m logical fc rw with
      | some e =>
        rw [ht] at hm'
        obtain rfl : m' = m₂ := hm'.trans hm₂
        refine again_of_words hsep hr hp ?_ ?_ ?_ (.inl rfl) ?_
        · rw [hroot₂, UInt32.or_assoc, UInt32.or_self]
        · rw [hpointer₂, UInt32.or_assoc, UInt32.or_self]
        · rw [pageTarget, hpage₂]
          rfl
        · rw [htarget₂, UInt32.or_zero]
      | none =>
        rw [ht] at hm'
        have hm₃ : m' = setBits m₂ (entries040 r m logical fc).target (pageMarks rw) := by
          rw [hm', ← hm₂]
          rfl
        refine again_of_words hsep hr hp ?_ ?_ ?_ (.inr rfl) ?_
        · rw [hm₃, hrootTarget.symm.read32_setBits, hroot₂, UInt32.or_assoc, UInt32.or_self]
        · rw [hm₃, hpointerTarget.symm.read32_setBits, hpointer₂, UInt32.or_assoc, UInt32.or_self]
        · by_cases heq : (entries040 r m logical fc).target = (entries040 r m logical fc).page
          · have hdirect := direct_of_resident ht
            rw [heq] at hdirect hm₃ ⊢
            rw [pageTarget, hm₃, read32_setBits, hpage₂, marks_and (by decide) (by decide),
              if_neg hdirect]
          · have hapart := (hsep.target hr hp heq).symm
            rw [pageTarget, hm₃, hapart.read32_setBits, hpage₂]
            rfl
        · rw [hm₃, read32_setBits, htarget₂]

/-! ## What a walk leaves -/

theorem marked_elsewhere (rw : Bool) {entries : Entries040} {ending : Ending040} {b : UInt32}
    (h : ∀ d ∈ entries.trail ending, b ∉ span d 4) : entries.marked m rw ending b = m b := by
  have hpage : (∀ d ∈ entries.all, b ∉ span d 4) →
      b ∉ span entries.root 4 ∧ b ∉ span entries.pointer 4 ∧ b ∉ span entries.target 4 := by
    intro hall
    unfold Entries040.all at hall
    split_ifs at hall with heq
    · rw [heq]
      exact ⟨hall _ (by simp), hall _ (by simp), hall _ (by simp)⟩
    · exact ⟨hall _ (by simp), hall _ (by simp), hall _ (by simp)⟩
  cases ending with
  | root e => rfl
  | pointer e => exact setBits_of_notMem _ _ (h _ (List.mem_cons_self ..))
  | page e =>
    obtain ⟨hroot, hpointer, -⟩ := hpage h
    rw [Entries040.marked, setBits_of_notMem _ _ hpointer, setBits_of_notMem _ _ hroot]
  | resident =>
    obtain ⟨hroot, hpointer, htarget⟩ := hpage h
    rw [Entries040.marked, setBits_of_notMem _ _ htarget, setBits_of_notMem _ _ hpointer,
      setBits_of_notMem _ _ hroot]

theorem target_mem_all (entries : Entries040) : entries.target ∈ entries.all := by
  unfold Entries040.all
  split_ifs with heq
  · rw [heq]
    simp
  · simp

theorem checks_of_page (h : (∃ e, ending040 r error m logical fc rw = .page e) ∨
      ending040 r error m logical fc rw = .resident) :
    rootCheck r error m logical fc rw = none ∧ pointerCheck r error m logical fc rw = none := by
  cases hr : rootCheck r error m logical fc rw with
  | some e =>
    rw [ending040_root hr] at h
    simp at h
  | none =>
    cases hp : pointerCheck r error m logical fc rw with
    | some e =>
      rw [ending040_pointer hr hp] at h
      simp at h
    | none => exact ⟨rfl, rfl⟩

/-- The page descriptor has its marks after a walk that finds its page. -/
theorem marked_target (hsep : Separate040 r error m logical fc rw)
    (hending : ending040 r error m logical fc rw = .resident) :
    read32 ((entries040 r m logical fc).marked m rw .resident) (entries040 r m logical fc).target =
      read32 m (entries040 r m logical fc).target ||| pageMarks rw := by
  obtain ⟨hr, hp⟩ := checks_of_page (.inr hending)
  obtain ⟨-, -, hwords⟩ := tables_words hsep hr hp rfl
  rw [Entries040.marked, read32_setBits,
    hwords _ (List.mem_cons_of_mem _ (List.mem_singleton_self _))]

theorem mem_all {entries : Entries040} {d : UInt32} (h : d ∈ entries.all) :
    d = entries.root ∨ d = entries.pointer ∨ d = entries.page ∨ d = entries.target := by
  unfold Entries040.all at h
  split_ifs at h <;> simp at h <;> tauto

/-- A walk sets the Used bit of descriptors that it reads, and nothing else but the marks of its
    page. -/
theorem marked_words (hsep : Separate040 r error m logical fc rw) {d : UInt32}
    (hd : d ∈ (entries040 r m logical fc).trail (ending040 r error m logical fc rw)) :
    let m' := (entries040 r m logical fc).marked m rw (ending040 r error m logical fc rw)
    read32 m' d = read32 m d ∨ read32 m' d = read32 m d ||| dfUsed ∨
      d = (entries040 r m logical fc).target ∧ ending040 r error m logical fc rw = .resident ∧
        read32 m' d = read32 m d ||| pageMarks rw := by
  dsimp only
  cases hending : ending040 r error m logical fc rw with
  | root e => exact .inl rfl
  | pointer e =>
    rw [hending] at hd
    have hr : rootCheck r error m logical fc rw = none := by
      cases hr : rootCheck r error m logical fc rw with
      | some e' =>
        rw [ending040_root hr] at hending
        cases hending
      | none => rfl
    rcases List.mem_cons.1 hd with rfl | hd
    · exact .inr (.inl (read32_setBits ..))
    · rw [List.mem_singleton.1 hd]
      exact .inl ((hsep.pointer hr).read32_setBits ..)
  | page e =>
    rw [hending] at hd
    obtain ⟨hr, hp⟩ := checks_of_page (.inl ⟨e, hending⟩)
    obtain ⟨hroot, hpointer, hwords⟩ := tables_words hsep hr hp rfl
    rcases mem_all hd with rfl | rfl | rfl | rfl
    · exact .inr (.inl hroot)
    · exact .inr (.inl hpointer)
    · exact .inl (hwords _ (List.mem_cons_self ..))
    · exact .inl (hwords _ (List.mem_cons_of_mem _ (List.mem_singleton_self _)))
  | resident =>
    rw [hending] at hd
    obtain ⟨hr, hp⟩ := checks_of_page (.inr hending)
    obtain ⟨hroot, hpointer, hwords⟩ := tables_words hsep hr hp rfl
    obtain ⟨hrootTarget, hpointerTarget⟩ :=
      hsep.page hr hp _ (List.mem_cons_of_mem _ (List.mem_singleton_self _))
    have hmarked := marked_target hsep hending
    rw [Entries040.marked] at hmarked ⊢
    rcases mem_all hd with rfl | rfl | rfl | rfl
    · exact .inr (.inl ((hrootTarget.symm.read32_setBits ..).trans hroot))
    · exact .inr (.inl ((hpointerTarget.symm.read32_setBits ..).trans hpointer))
    · by_cases heq : (entries040 r m logical fc).target = (entries040 r m logical fc).page
      · rw [← heq]
        exact .inr (.inr ⟨rfl, rfl, hmarked⟩)
      · exact .inl (((hsep.target hr hp heq).symm.read32_setBits ..).trans
          (hwords _ (List.mem_cons_self ..)))
    · exact .inr (.inr ⟨rfl, rfl, hmarked⟩)

end

/-! ## Translations -/

section
variable {s : M68kMmu} {logical fc : UInt32} {rw sideEffects : Bool}

/-- Whether a translation walks the tables. -/
def walks040 (s : M68kMmu) (logical fc : UInt32) (rw : Bool) : Bool :=
  let (tt0, tt1) := transparent040 s.regs fc
  let result : TranslationResult := { physicalAddress := logical }
  fc &&& 3 != 0 && ((pmmuMatchTt040 logical fc tt0 rw result).orElse fun _ =>
    pmmuMatchTt040 logical fc tt1 rw result).isNone && s.regs.pmmuEnabled

/-- The result of a walk. -/
def answer040 (logical : UInt32) : UInt16 × Except Refusal040 UInt32 → TranslationResult
  | (tmpSr, .error .invalid) =>
    { physicalAddress := logical, status := srInvalid ||| tmpSr, fault := true }
  | (_, .error .protectedPage) =>
    { physicalAddress := logical, status := srWriteProtect, fault := true }
  | (_, .ok physical) => { physicalAddress := physical, status := mmu040Resident }

theorem pmmuTranslate040_fixed (h : walks040 s logical fc rw = false) :
    ∃ result, ∀ sideEffects, pmmuTranslate040 s logical fc rw sideEffects = (s, result) := by
  unfold walks040 at h
  unfold pmmuTranslate040
  dsimp only at h ⊢
  by_cases hfc : fc &&& 3 = 0
  · simp only [if_pos hfc]
    exact ⟨_, fun _ => rfl⟩
  simp only [if_neg hfc]
  cases htt : (pmmuMatchTt040 logical fc (transparent040 s.regs fc).1 rw
      { physicalAddress := logical }).orElse fun _ =>
        pmmuMatchTt040 logical fc (transparent040 s.regs fc).2 rw
          { physicalAddress := logical } with
  | some result => exact ⟨result, fun _ => rfl⟩
  | none =>
    have hdisabled : (!s.regs.pmmuEnabled) = true := by
      rw [htt] at h
      simpa [bne_iff_ne, hfc] using h
    simp only [if_pos hdisabled]
    exact ⟨_, fun _ => rfl⟩

theorem pmmuTranslate040_walk (h : walks040 s logical fc rw = true) (sideEffects : Bool) :
    pmmuTranslate040 s logical fc rw sideEffects =
      let (w, ending) := walk040 s.regs s.physicalError s.memory logical fc rw sideEffects
      ({ s with memory := w.memory, tmpSr := w.tmpSr }, answer040 logical (w.tmpSr, ending)) := by
  unfold walks040 at h
  dsimp only at h
  rw [Bool.and_eq_true, Bool.and_eq_true, bne_iff_ne, Option.isNone_iff_eq_none] at h
  obtain ⟨⟨hfc, htt⟩, henabled⟩ := h
  unfold pmmuTranslate040
  dsimp only
  rw [if_neg hfc, htt]
  simp only [henabled, Bool.not_true, Bool.false_eq_true, if_false]
  rcases walk040 s.regs s.physicalError s.memory logical fc rw sideEffects with
    ⟨w, (_ | _) | physical⟩ <;> rfl

theorem fault_iff_resident {r : Registers} {error : UInt32 → Bool} {m : Memory} :
    (answer040 logical (outcome040 r error m logical fc rw)).fault = false ↔
      ending040 r error m logical fc rw = .resident := by
  unfold outcome040
  rcases ending040 r error m logical fc rw with (_ | _) | (_ | _) | (_ | _) | _ <;>
    simp [answer040]

/-- The descriptors that a translation reads. -/
def walked040 (s : M68kMmu) (logical fc : UInt32) (rw : Bool) : List UInt32 :=
  if walks040 s logical fc rw then
    (entries040 s.regs s.memory logical fc).trail
      (ending040 s.regs s.physicalError s.memory logical fc rw)
  else []

/-- The page descriptor of an address, where it has one. -/
def pageDescriptor040 (s : M68kMmu) (logical fc : UInt32) : UInt32 :=
  (entries040 s.regs s.memory logical fc).target

/-- What the marks of a translation of the 68040 have to do with what it finds. -/
structure Consistent040 (s : M68kMmu) (logical fc : UInt32) (rw : Bool) : Prop where
  withoutMarks : (pmmuTranslate040 s logical fc rw false).2 = (pmmuTranslate040 s logical fc rw true).2
  again : (pmmuTranslate040 (pmmuTranslate040 s logical fc rw true).1 logical fc rw true).2 =
    (pmmuTranslate040 s logical fc rw true).2
  unwritten : (pmmuTranslate040 s logical fc rw false).1.memory = s.memory
  elsewhere : ∀ b, (∀ d ∈ walked040 s logical fc rw, b ∉ span d 4) →
    (pmmuTranslate040 s logical fc rw true).1.memory b = s.memory b
  marks : ∀ d ∈ walked040 s logical fc rw,
    read32 (pmmuTranslate040 s logical fc rw true).1.memory d = read32 s.memory d ∨
      read32 (pmmuTranslate040 s logical fc rw true).1.memory d = read32 s.memory d ||| dfUsed ∨
      d = pageDescriptor040 s logical fc ∧ rw = false ∧
        (pmmuTranslate040 s logical fc rw true).2.fault = false ∧
        read32 (pmmuTranslate040 s logical fc rw true).1.memory d =
          read32 s.memory d ||| (dfUsed ||| dfModified)
  modified : walks040 s logical fc rw = true → rw = false →
    (pmmuTranslate040 s logical fc rw true).2.fault = false →
    pageDescriptor040 s logical fc ∈ walked040 s logical fc rw ∧
      read32 (pmmuTranslate040 s logical fc rw true).1.memory (pageDescriptor040 s logical fc) =
        read32 s.memory (pageDescriptor040 s logical fc) ||| (dfUsed ||| dfModified)

/-- A walk of the 68040 through descriptors of which no two share a byte. -/
theorem translate040_consistent (s : M68kMmu) (logical fc : UInt32) (rw : Bool)
    (hapart : (walked040 s logical fc rw).Pairwise Apart) : Consistent040 s logical fc rw := by
  cases hwalks : walks040 s logical fc rw with
  | false =>
    obtain ⟨result, hfixed⟩ := pmmuTranslate040_fixed hwalks
    have hnil : walked040 s logical fc rw = [] := by
      rw [walked040, if_neg (by rw [hwalks]; exact Bool.false_ne_true)]
    refine ⟨?_, ?_, ?_, fun b _ => ?_, fun d hd => ?_, fun h => ?_⟩
    · rw [hfixed, hfixed]
    · rw [hfixed, hfixed]
    · rw [hfixed]
    · rw [hfixed]
    · rw [hnil] at hd
      cases hd
    · rw [hwalks] at h
      cases h
  | true =>
    have htrail : walked040 s logical fc rw =
        (entries040 s.regs s.memory logical fc).trail
          (ending040 s.regs s.physicalError s.memory logical fc rw) := if_pos hwalks
    rw [htrail] at hapart
    have hsep := separate_of_trail hapart
    have hwithout := pmmuTranslate040_walk hwalks false
    have hwith := pmmuTranslate040_walk hwalks true
    rw [walk040_eq_outcome false (fun h => nomatch h)] at hwithout
    rw [walk040_eq_outcome true (fun _ => hsep)] at hwith
    simp only [if_true, Bool.false_eq_true, if_false] at hwith hwithout
    obtain ⟨hout, hsep'⟩ := marked_again hsep rfl
    generalize hm' : (entries040 s.regs s.memory logical fc).marked s.memory rw
      (ending040 s.regs s.physicalError s.memory logical fc rw) = m' at hwith hout hsep'
    have hmemory : (pmmuTranslate040 s logical fc rw true).1.memory = m' := by rw [hwith]
    have hanswer : (pmmuTranslate040 s logical fc rw true).2 =
        answer040 logical (outcome040 s.regs s.physicalError s.memory logical fc rw) := by rw [hwith]
    have hfault : (pmmuTranslate040 s logical fc rw true).2.fault = false ↔
        ending040 s.regs s.physicalError s.memory logical fc rw = .resident := by
      rw [hanswer]
      exact fault_iff_resident
    refine ⟨?_, ?_, ?_, fun b hb => ?_, fun d hd => ?_, fun _ hrw hok => ?_⟩
    · rw [hanswer, hwithout]
    · rw [hanswer, hwith]
      rw [pmmuTranslate040_walk (by exact hwalks) true]
      dsimp only
      rw [walk040_eq_outcome true (fun _ => hsep'), hout]
    · rw [hwithout]
    · rw [htrail] at hb
      rw [hmemory, ← hm']
      exact marked_elsewhere rw hb
    · rw [htrail] at hd
      rw [hmemory]
      rcases marked_words hsep hd with h | h | ⟨htarget, hending, h⟩
      · exact .inl (by rw [← hm', h])
      · exact .inr (.inl (by rw [← hm', h]))
      · cases hrw : rw with
        | true =>
          subst hrw
          exact .inr (.inl (by rw [← hm', h, pageMarks, if_pos rfl, UInt32.or_zero]))
        | false =>
          subst hrw
          exact .inr (.inr ⟨htarget, rfl, hfault.2 hending, by rw [← hm', h]; rfl⟩)
    · subst hrw
      have hending := hfault.1 hok
      rw [htrail, hmemory, ← hm', hending]
      exact ⟨target_mem_all _, marked_target hsep hending⟩

/-- Tables with one page, at 0x5000. -/
def onePage040 : M68kMmu where
  regs := { kind := .m68040, pmmuEnabled := true, tc := 0x8000, urpAptr := 0x1000 }
  memory := write32 (write32 (write32 (fun _ => 0) 0x1000 0x2002) 0x2000 0x3002) 0x3000 0x5001

theorem onePage040_consistent : Consistent040 onePage040 0x123 1 false :=
  translate040_consistent onePage040 0x123 1 false (by decide +kernel)

end

end CuteMac.Cpu
