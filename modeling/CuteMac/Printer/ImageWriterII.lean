/-
  The dot-matrix printer (`ImageWriterII.cpp`).

  * `QString.trimmed`, `QString.toInt`: the parser of the decimal fields, with blanks and a sign;
  * `ImageWriterII`, `receiveByte`: the page and the parser of the byte stream;
  * `InStep`: the graphics bytes that are still expected are what the parser waits for;
  * `inStep_iff`: it holds as long as no graphics count has a minus sign that counts.

  A count below zero leaves the parser counting down, away from the zero that ends the
  graphics.  The counters are unbounded here.
-/
import CuteMac.Lib.Machine
import Mathlib.Data.Nat.Digits.Defs
import Mathlib.Data.Nat.Digits.Lemmas

namespace CuteMac.Printer

open Machine

/-! ## Decimal fields -/

namespace QString

/-- The Latin-1 characters that are spaces. -/
def isSpace (c : UInt8) : Bool := c == 0x20 || 0x09 ≤ c && c ≤ 0x0d || c == 0x85 || c == 0xa0

def trimmed (s : List UInt8) : List UInt8 := ((s.dropWhile isSpace).reverse.dropWhile isSpace).reverse

def isDigit (c : UInt8) : Bool := 0x30 ≤ c && c ≤ 0x39

/-- One digit at least, and nothing else. -/
def digitsToNat (s : List UInt8) : Option Nat :=
  if s ≠ [] ∧ s.all isDigit then some (Nat.ofDigits 10 (s.reverse.map fun c => (c - 0x30).toNat))
  else none

/-- The number of a trimmed text, which may have a sign. -/
def toInt : List UInt8 → Option Int
  | 0x2b :: s => (digitsToNat s).map fun n : Nat => (n : Int)
  | 0x2d :: s => (digitsToNat s).map fun n : Nat => -(n : Int)
  | s => (digitsToNat s).map fun n : Nat => (n : Int)

end QString

/-! ## The printer -/

structure RasterPage where
  width : Nat := 1224
  height : Nat := 1584
  dotsPerInch : Nat := 144
  pixels : Nat → UInt8 := fun _ => 0

inductive ParserState where
  | text
  | escape
  | parameter
  | graphicsCount
  | graphicsData
  deriving DecidableEq

structure ImageWriterII where
  /-- The pages that went to the sink. -/
  sink : List RasterPage := []
  page : RasterPage := {}
  state : ParserState := .text
  graphicsCommand : UInt8 := 0
  parameterCommand : UInt8 := 0
  parameterLength : Nat := 0
  count : List UInt8 := []
  graphicsRemaining : Int := 0
  x : Int := 0
  y : Int := 0
  graphicsX : Int := 0
  lineHeight : Int := 24
  horizontalScale : Int := 1
  dirty : Bool := false

/-- The fallback glyphs of text. -/
def glyph (c : UInt8) : List UInt8 :=
  if c = 0x20 then [0, 0, 0, 0, 0]
  else
    [((c &&& 1) <<< 2) ||| 0x41, ((c &&& 2) <<< 3) ||| 0x22, ((c &&& 4) <<< 2) ||| 0x14,
      ((c &&& 8) <<< 1) ||| 0x22, 0x41]

namespace ImageWriterII

def clearPage (p : ImageWriterII) : ImageWriterII :=
  { p with page := {}, x := 0, y := 0, graphicsX := 0, dirty := false }

def ejectPage (p : ImageWriterII) : ImageWriterII :=
  { p with sink := if p.dirty then p.sink ++ [p.page] else p.sink }.clearPage

def reset (p : ImageWriterII) : ImageWriterII :=
  { p.ejectPage with
    state := .text, count := [], graphicsRemaining := 0, lineHeight := 24, horizontalScale := 1
    x := 0 }

def putDot (p : ImageWriterII) (x y : Int) : ImageWriterII :=
  if x < 0 ∨ y < 0 ∨ p.page.width ≤ x ∨ p.page.height ≤ y then p
  else
    { p with
      page := { p.page with
        pixels := Function.update p.page.pixels (y.toNat * p.page.width + x.toNat) 1 }
      dirty := true }

/-- The dots of a column, for the bits of a byte. -/
def putColumn (p : ImageWriterII) (bits : UInt8) (rows : Nat) (x y : Int) : ImageWriterII :=
  (List.range rows).foldl
    (fun p row => if bits.toNat.testBit row then p.putDot x (y + row * 2) else p) p

def putCharacter (p : ImageWriterII) (value : UInt8) : ImageWriterII :=
  let q := (glyph value).zipIdx.foldl
    (fun q (bits, column) => q.putColumn bits 7 (p.x + column * 2) p.y) p
  { q with x := p.x + 12 }

/-- What follows a graphics command is counted in groups of eight bytes by one of them. -/
def countScale (command : UInt8) : Int := if command = 'g'.toUInt8 then 8 else 1

def countDigits (command : UInt8) : Nat := if command = 'g'.toUInt8 then 3 else 4

/-- The number of a field. -/
def fieldValue (count : List UInt8) : Option Int := QString.toInt (QString.trimmed count)

def finishGraphicsCount (p : ImageWriterII) : ImageWriterII :=
  let remaining :=
    match fieldValue p.count with
    | some count => count * countScale p.graphicsCommand
    | none => 0
  { p with
    graphicsRemaining := remaining
    graphicsX := p.x
    state := if remaining ≠ 0 then .graphicsData else .text }

def receiveGraphics (p : ImageWriterII) (value : UInt8) : ImageWriterII :=
  let p := p.putColumn value 8 p.graphicsX p.y
  let p :=
    { p with
      graphicsX := p.graphicsX + p.horizontalScale
      graphicsRemaining := p.graphicsRemaining - 1 }
  if p.graphicsRemaining = 0 then { p with x := p.graphicsX, state := .text } else p

def receiveCount (p : ImageWriterII) (value : UInt8) : ImageWriterII :=
  let p := { p with count := p.count ++ [value] }
  if p.count.length = countDigits p.graphicsCommand then p.finishGraphicsCount else p

def receiveParameter (p : ImageWriterII) (value : UInt8) : ImageWriterII :=
  let p := { p with count := p.count ++ [value] }
  if p.count.length = p.parameterLength then
    let p :=
      match fieldValue p.count with
      | some parameter =>
        if p.parameterCommand = 'T'.toUInt8 then { p with lineHeight := max 1 parameter }
        else if p.parameterCommand = 'F'.toUInt8 then { p with x := max 0 parameter }
        else p
      | none => p
    { p with state := .text }
  else p

def receiveEscape (p : ImageWriterII) (value : UInt8) : ImageWriterII :=
  let p := { p with state := .text }
  if value = 'G'.toUInt8 ∨ value = 'S'.toUInt8 ∨ value = 'g'.toUInt8 then
    { p with graphicsCommand := value, count := [], state := .graphicsCount }
  else if value = 'T'.toUInt8 ∨ value = 'F'.toUInt8 ∨ value = 'H'.toUInt8 ∨ value = 'L'.toUInt8 then
    { p with
      parameterCommand := value
      parameterLength := if value = 'T'.toUInt8 then 2 else if value = 'L'.toUInt8 then 3 else 4
      count := []
      state := .parameter }
  else if value = 'p'.toUInt8 ∨ value = 'P'.toUInt8 then { p with horizontalScale := 1 }
  else if value = 'N'.toUInt8 then { p with horizontalScale := 2 }
  else p

def receiveText (p : ImageWriterII) (value : UInt8) : ImageWriterII :=
  if value = 0x1b then { p with state := .escape }
  else if value = 0x0c then p.ejectPage
  else if value = 0x0d then { p with x := 0 }
  else if value = 0x0a then
    let p := { p with y := p.y + p.lineHeight }
    if (p.page.height : Int) ≤ p.y + 16 then p.ejectPage else p
  else if value = 0x09 then { p with x := (p.x.tdiv 96 + 1) * 96 }
  else if 0x20 ≤ value ∧ value ≠ 0x7f then p.putCharacter value
  else p

def receiveByte (p : ImageWriterII) (value : UInt8) : ImageWriterII :=
  match p.state with
  | .graphicsData => p.receiveGraphics value
  | .graphicsCount => p.receiveCount value
  | .parameter => p.receiveParameter value
  | .escape => p.receiveEscape value
  | .text => p.receiveText value

end ImageWriterII

/-! ## Bounds of a field -/

namespace QString

theorem length_trimmed (s : List UInt8) : (trimmed s).length ≤ s.length := by
  unfold trimmed
  rw [List.length_reverse]
  calc ((s.dropWhile isSpace).reverse.dropWhile isSpace).length
      ≤ (s.dropWhile isSpace).reverse.length := (List.dropWhile_suffix _).length_le
    _ = (s.dropWhile isSpace).length := List.length_reverse
    _ ≤ s.length := (List.dropWhile_suffix _).length_le

theorem toNat_digit {c : UInt8} (h : isDigit c = true) : (c - 0x30).toNat < 10 := by
  unfold isDigit at h
  rw [Bool.and_eq_true, decide_eq_true_eq, decide_eq_true_eq, UInt8.le_iff_toNat_le,
    UInt8.le_iff_toNat_le] at h
  have h30 : (0x30 : UInt8).toNat = 0x30 := rfl
  have h39 : (0x39 : UInt8).toNat = 0x39 := rfl
  rw [UInt8.toNat_sub_of_le _ _ (UInt8.le_iff_toNat_le.2 h.1)]
  omega

theorem digitsToNat_lt {s : List UInt8} {n : Nat} (h : digitsToNat s = some n) :
    n < 10 ^ s.length := by
  unfold digitsToNat at h
  split_ifs at h with hdigits
  cases h
  have hlt := Nat.ofDigits_lt_base_pow_length (b := 10)
    (l := s.reverse.map fun c => (c - 0x30).toNat) (by decide) (by
      intro d hd
      obtain ⟨c, hc, rfl⟩ := List.mem_map.1 hd
      exact toNat_digit (List.all_eq_true.1 hdigits.2 c (List.mem_reverse.1 hc)))
  rwa [List.length_map, List.length_reverse] at hlt

theorem toInt_lt {s : List UInt8} {i : Int} (h : toInt s = some i) :
    i < ((10 ^ s.length : Nat) : Int) := by
  unfold toInt at h
  split at h
  · obtain ⟨n, hn, rfl⟩ := Option.map_eq_some_iff.1 h
    have hlt := lt_of_lt_of_le (digitsToNat_lt hn)
      (Nat.pow_le_pow_right (by decide) (Nat.le_succ _))
    exact_mod_cast hlt
  · obtain ⟨n, hn, rfl⟩ := Option.map_eq_some_iff.1 h
    have hpos : ∀ m, 0 < 10 ^ m := fun m => Nat.pow_pos (by decide)
    exact lt_of_le_of_lt (Int.neg_nonpos_of_nonneg (Int.natCast_nonneg n))
      (by exact_mod_cast hpos _)
  · obtain ⟨n, hn, rfl⟩ := Option.map_eq_some_iff.1 h
    exact_mod_cast digitsToNat_lt hn

end QString

namespace ImageWriterII

theorem fieldValue_lt {count : List UInt8} {i : Int} (h : fieldValue count = some i) :
    i < ((10 ^ count.length : Nat) : Int) := by
  have hlt := QString.toInt_lt h
  have hpow : 10 ^ (QString.trimmed count).length ≤ 10 ^ count.length :=
    Nat.pow_le_pow_right (by decide) (QString.length_trimmed count)
  exact lt_of_lt_of_le hlt (by exact_mod_cast hpow)

/-! ## The parser and the page -/

/-- The parser is in the same state. -/
structure SameParser (p q : ImageWriterII) : Prop where
  state : q.state = p.state
  graphicsCommand : q.graphicsCommand = p.graphicsCommand
  count : q.count = p.count
  graphicsRemaining : q.graphicsRemaining = p.graphicsRemaining

theorem SameParser.refl (p : ImageWriterII) : SameParser p p := ⟨rfl, rfl, rfl, rfl⟩

theorem SameParser.trans {p q r : ImageWriterII} (h : SameParser p q) (h' : SameParser q r) :
    SameParser p r where
  state := h'.state.trans h.state
  graphicsCommand := h'.graphicsCommand.trans h.graphicsCommand
  count := h'.count.trans h.count
  graphicsRemaining := h'.graphicsRemaining.trans h.graphicsRemaining

/-- What every round of a loop leaves alone. -/
theorem SameParser.foldl {α : Type} {f : ImageWriterII → α → ImageWriterII}
    (hf : ∀ p a, SameParser p (f p a)) (as : List α) (p : ImageWriterII) :
    SameParser p (as.foldl f p) := by
  induction as generalizing p with
  | nil => exact .refl p
  | cons a as ih => exact (hf p a).trans (ih (f p a))

section
variable (p : ImageWriterII)

theorem putDot_parserKept (x y : Int) : SameParser p (p.putDot x y) := by
  unfold putDot
  split_ifs
  · exact .refl p
  · exact ⟨rfl, rfl, rfl, rfl⟩

theorem putColumn_parserKept (bits : UInt8) (rows : Nat) (x y : Int) :
    SameParser p (p.putColumn bits rows x y) := by
  refine .foldl (fun p row => ?_) _ p
  split_ifs
  · exact putDot_parserKept p _ _
  · exact .refl p

theorem putCharacter_parserKept (value : UInt8) : SameParser p (p.putCharacter value) := by
  have hcolumns := SameParser.foldl
    (fun (q : ImageWriterII) (column : UInt8 × Nat) =>
      putColumn_parserKept q column.1 7 (p.x + column.2 * 2) p.y) (glyph value).zipIdx p
  exact hcolumns.trans ⟨rfl, rfl, rfl, rfl⟩

theorem ejectPage_parserKept : SameParser p p.ejectPage := ⟨rfl, rfl, rfl, rfl⟩

end

/-! ## Steps -/

/-- The most graphics bytes that a command announces. -/
def graphicsLimit (command : UInt8) : Int := if command = 'g'.toUInt8 then 8 * 999 else 9999

/-- Graphics are only expected while they are received, and a field is not complete. -/
structure Shape (p : ImageWriterII) : Prop where
  idle : p.state ≠ .graphicsData → p.graphicsRemaining = 0
  running : p.state = .graphicsData → p.graphicsRemaining ≠ 0
  field : p.state = .graphicsCount → p.count.length < countDigits p.graphicsCommand

/-- The number of bytes that are still expected is one that a command can announce. -/
structure InRange (p : ImageWriterII) : Prop where
  nonneg : 0 ≤ p.graphicsRemaining
  bounded : p.graphicsRemaining ≤ graphicsLimit p.graphicsCommand

theorem graphicsLimit_nonneg (command : UInt8) : 0 ≤ graphicsLimit command := by
  unfold graphicsLimit
  split_ifs <;> decide

section
variable {p q : ImageWriterII}

theorem Shape.congr (h : Shape p) (hq : SameParser p q) : Shape q where
  idle := by rw [hq.state, hq.graphicsRemaining]; exact h.idle
  running := by rw [hq.state, hq.graphicsRemaining]; exact h.running
  field := by rw [hq.state, hq.count, hq.graphicsCommand]; exact h.field

theorem InRange.congr (h : InRange p) (hq : SameParser p q) : InRange q where
  nonneg := by rw [hq.graphicsRemaining]; exact h.nonneg
  bounded := by rw [hq.graphicsRemaining, hq.graphicsCommand]; exact h.bounded

theorem InRange.of_zero (h : p.graphicsRemaining = 0) : InRange p where
  nonneg := h.ge
  bounded := by rw [h]; exact graphicsLimit_nonneg _

/-- The parser reads something other than graphics or their count. -/
theorem Shape.of_zero (h : p.graphicsRemaining = 0) (hdata : p.state ≠ .graphicsData)
    (hcount : p.state ≠ .graphicsCount) : Shape p :=
  ⟨fun _ => h, fun hstate => absurd hstate hdata, fun hstate => absurd hstate hcount⟩

/-! ### One byte -/

theorem receiveGraphics_parserKept (value : UInt8) :
    (p.receiveGraphics value).graphicsRemaining = p.graphicsRemaining - 1 ∧
      (p.receiveGraphics value).graphicsCommand = p.graphicsCommand ∧
      (p.receiveGraphics value).state =
        if p.graphicsRemaining - 1 = 0 then .text else p.state := by
  have hcolumn := putColumn_parserKept p value 8 p.graphicsX p.y
  dsimp only [receiveGraphics]
  rw [hcolumn.graphicsRemaining]
  split_ifs
  · exact ⟨rfl, hcolumn.graphicsCommand, rfl⟩
  · exact ⟨rfl, hcolumn.graphicsCommand, hcolumn.state⟩

theorem receiveText_parserKept (value : UInt8) :
    (p.receiveText value).graphicsRemaining = p.graphicsRemaining ∧
      ((p.receiveText value).state = p.state ∨ (p.receiveText value).state = .escape) := by
  have hchar := putCharacter_parserKept p value
  dsimp only [receiveText]
  split_ifs <;> first
    | exact ⟨rfl, .inr rfl⟩
    | exact ⟨rfl, .inl rfl⟩
    | exact ⟨hchar.graphicsRemaining, .inl hchar.state⟩

theorem receiveParameter_parserKept (value : UInt8) :
    (p.receiveParameter value).graphicsRemaining = p.graphicsRemaining ∧
      ((p.receiveParameter value).state = p.state ∨ (p.receiveParameter value).state = .text) := by
  dsimp only [receiveParameter]
  by_cases hlength : (p.count ++ [value]).length = p.parameterLength
  · rw [if_pos hlength]
    refine ⟨?_, .inr rfl⟩
    cases fieldValue (p.count ++ [value]) with
    | none => rfl
    | some parameter =>
      dsimp only
      split_ifs <;> rfl
  · rw [if_neg hlength]
    exact ⟨rfl, .inl rfl⟩

theorem receiveEscape_parserKept (value : UInt8) :
    (p.receiveEscape value).graphicsRemaining = p.graphicsRemaining ∧
      (p.receiveEscape value).state ≠ .graphicsData ∧
      ((p.receiveEscape value).state = .graphicsCount → (p.receiveEscape value).count = []) := by
  dsimp only [receiveEscape]
  split_ifs <;> simp

theorem countDigits_pos (command : UInt8) : 0 < countDigits command := by
  unfold countDigits
  split_ifs <;> decide

theorem receiveByte_shape (h : Shape p) (value : UInt8) : Shape (p.receiveByte value) := by
  cases hstate : p.state with
  | graphicsData =>
    rw [receiveByte, hstate]
    obtain ⟨hr, -, hs⟩ := receiveGraphics_parserKept (p := p) value
    refine ⟨?_, ?_, ?_⟩ <;> rw [hs, hstate]
    · rw [hr]
      split_ifs with hzero
      · exact fun _ => hzero
      · exact fun hne => absurd rfl hne
    · rw [hr]
      split_ifs with hzero
      · intro he
        cases he
      · exact fun _ => hzero
    · split_ifs <;> (intro he; cases he)
  | graphicsCount =>
    rw [receiveByte, hstate]
    dsimp only [receiveCount]
    split_ifs with hlength
    · dsimp only [finishGraphicsCount]
      refine ⟨?_, ?_, ?_⟩ <;> split_ifs with hzero <;> simp_all
    · have hzero : p.graphicsRemaining = 0 := h.idle (by rw [hstate]; decide)
      refine ⟨fun _ => hzero, fun he => ?_, fun _ => ?_⟩
      · rw [show p.state = .graphicsData from he] at hstate
        cases hstate
      · have hlt := h.field hstate
        have hlen : (p.count ++ [value]).length = p.count.length + 1 := List.length_append
        show (p.count ++ [value]).length < countDigits p.graphicsCommand
        have hne : ¬ (p.count ++ [value]).length = countDigits p.graphicsCommand := hlength
        omega
  | parameter =>
    have hzero : p.graphicsRemaining = 0 := h.idle (by rw [hstate]; decide)
    rw [receiveByte, hstate]
    obtain ⟨hr, hs⟩ := receiveParameter_parserKept (p := p) value
    rw [hstate] at hs
    refine .of_zero (hr.trans hzero) ?_ ?_ <;> rcases hs with hs | hs <;> rw [hs] <;> decide
  | escape =>
    have hzero : p.graphicsRemaining = 0 := h.idle (by rw [hstate]; decide)
    rw [receiveByte, hstate]
    obtain ⟨hr, hs, hcount⟩ := receiveEscape_parserKept (p := p) value
    refine ⟨fun _ => hr.trans hzero, fun he => absurd he hs, fun he => ?_⟩
    rw [hcount he]
    exact countDigits_pos _
  | text =>
    have hzero : p.graphicsRemaining = 0 := h.idle (by rw [hstate]; decide)
    rw [receiveByte, hstate]
    obtain ⟨hr, hs⟩ := receiveText_parserKept (p := p) value
    rw [hstate] at hs
    refine .of_zero (hr.trans hzero) ?_ ?_ <;> rcases hs with hs | hs <;> rw [hs] <;> decide

/-- The byte does not complete a graphics count below zero. -/
def CountOk (p : ImageWriterII) (value : UInt8) : Prop :=
  p.state = .graphicsCount → p.count.length + 1 = countDigits p.graphicsCommand →
    ∀ i, fieldValue (p.count ++ [value]) = some i → 0 ≤ i

/-- The number of bytes that a complete field announces. -/
theorem count_inRange {i : Int} {command : UInt8} {count : List UInt8}
    (hlength : count.length = countDigits command) (h : fieldValue count = some i) :
    i * countScale command ≤ graphicsLimit command ∧ (0 ≤ i * countScale command ↔ 0 ≤ i) := by
  have hlt := fieldValue_lt h
  rw [hlength] at hlt
  unfold countDigits countScale graphicsLimit at *
  split_ifs at * <;> norm_num at hlt ⊢ <;> omega

theorem receiveCount_inRange (hstate : p.state = .graphicsCount) (hr : InRange p) (value : UInt8) :
    InRange (p.receiveCount value) ↔ CountOk p value := by
  have hlen : (p.count ++ [value]).length = p.count.length + 1 := List.length_append
  unfold CountOk
  rw [← hlen]
  dsimp only [receiveCount]
  split_ifs with hlength
  · have hlength : (p.count ++ [value]).length = countDigits p.graphicsCommand := hlength
    cases hfield : fieldValue (p.count ++ [value]) with
    | none =>
      refine iff_of_true (.of_zero ?_) fun _ _ i hi => by cases hi
      simp [finishGraphicsCount, hfield]
    | some i =>
      obtain ⟨hlimit, hsign⟩ := count_inRange hlength hfield
      constructor
      · rintro ⟨hnonneg, -⟩ - - j hj
        cases hj
        simp only [finishGraphicsCount, hfield] at hnonneg
        exact hsign.1 hnonneg
      · intro h
        refine ⟨?_, ?_⟩ <;> simp only [finishGraphicsCount, hfield]
        · exact hsign.2 (h hstate hlength i rfl)
        · exact hlimit
  · exact iff_of_true ⟨hr.nonneg, hr.bounded⟩ fun _ he => absurd he hlength

theorem receiveByte_inRange (h : Shape p) (hr : InRange p) (value : UInt8) :
    InRange (p.receiveByte value) ↔ CountOk p value := by
  cases hstate : p.state with
  | graphicsCount =>
    rw [receiveByte, hstate]
    exact receiveCount_inRange hstate hr value
  | graphicsData =>
    refine iff_of_true ?_ fun hcount => by rw [hstate] at hcount; cases hcount
    rw [receiveByte, hstate]
    obtain ⟨hrest, hcommand, -⟩ := receiveGraphics_parserKept (p := p) value
    have hpos := h.running hstate
    have hnonneg := hr.nonneg
    have hbounded := hr.bounded
    refine ⟨?_, ?_⟩
    · rw [hrest]
      omega
    · rw [hrest, hcommand]
      omega
  | parameter =>
    have hzero : p.graphicsRemaining = 0 := h.idle (by rw [hstate]; decide)
    refine iff_of_true (.of_zero ?_) fun hcount => by rw [hstate] at hcount; cases hcount
    rw [receiveByte, hstate]
    exact (receiveParameter_parserKept value).1.trans hzero
  | escape =>
    have hzero : p.graphicsRemaining = 0 := h.idle (by rw [hstate]; decide)
    refine iff_of_true (.of_zero ?_) fun hcount => by rw [hstate] at hcount; cases hcount
    rw [receiveByte, hstate]
    exact (receiveEscape_parserKept value).1.trans hzero
  | text =>
    have hzero : p.graphicsRemaining = 0 := h.idle (by rw [hstate]; decide)
    refine iff_of_true (.of_zero ?_) fun hcount => by rw [hstate] at hcount; cases hcount
    rw [receiveByte, hstate]
    exact (receiveText_parserKept value).1.trans hzero

/-- Graphics end after the bytes that were expected. -/
theorem graphics_end {bytes : List UInt8} (hne : bytes ≠ []) (hstate : p.state = .graphicsData)
    (hlength : (bytes.length : Int) = p.graphicsRemaining) :
    (bytes.foldl receiveByte p).state = .text := by
  induction bytes generalizing p with
  | nil => exact absurd rfl hne
  | cons value bytes ih =>
    have hbyte : p.receiveByte value = p.receiveGraphics value := by rw [receiveByte, hstate]
    obtain ⟨hrest, -, hs⟩ := receiveGraphics_parserKept (p := p) value
    rw [List.foldl_cons, hbyte]
    rw [List.length_cons] at hlength
    cases bytes with
    | nil =>
      rw [List.foldl_nil, hs, if_pos]
      simp only [List.length_nil] at hlength
      omega
    | cons next bytes =>
      refine ih (List.cons_ne_nil _ _) ?_ ?_
      · rw [hs, if_neg, hstate]
        simp only [List.length_cons] at hlength
        omega
      · rw [hrest]
        omega

end

/-! ## Runs -/

inductive Op where
  | receiveByte (value : UInt8)
  | ejectPage
  | reset

def step (p : ImageWriterII) : Op → ImageWriterII
  | .receiveByte value => p.receiveByte value
  | .ejectPage => p.ejectPage
  | .reset => p.reset

/-- The parser gets back to text. -/
structure InStep (p : ImageWriterII) : Prop where
  expected : 0 < p.graphicsRemaining ↔ p.state = .graphicsData
  bounded : p.graphicsRemaining ≤ graphicsLimit p.graphicsCommand
  ends : ∀ bytes : List UInt8, p.state = .graphicsData →
    (bytes.length : Int) = p.graphicsRemaining → (bytes.foldl receiveByte p).state = .text

theorem inStep_iff_inRange {p : ImageWriterII} (h : Shape p) : InStep p ↔ InRange p := by
  constructor
  · rintro ⟨hexpected, hbounded, -⟩
    refine ⟨?_, hbounded⟩
    by_cases hstate : p.state = .graphicsData
    · exact (hexpected.2 hstate).le
    · exact (h.idle hstate).ge
  · rintro ⟨hnonneg, hbounded⟩
    have hexpected : 0 < p.graphicsRemaining ↔ p.state = .graphicsData := by
      constructor
      · intro hpos
        by_contra hstate
        exact hpos.ne' (h.idle hstate)
      · exact fun hstate => lt_of_le_of_ne hnonneg (h.running hstate).symm
    refine ⟨hexpected, hbounded, fun bytes hstate hlength => ?_⟩
    refine graphics_end ?_ hstate hlength
    rintro rfl
    exact (hexpected.2 hstate).ne hlength

/-- The step does not complete a graphics count below zero. -/
def CountsOk (p : ImageWriterII) : Op → Prop
  | .receiveByte value => CountOk p value
  | _ => True

theorem reset_shape (p : ImageWriterII) : Shape p.reset :=
  .of_zero rfl (by simp [reset]) (by simp [reset])

theorem step_shape {p : ImageWriterII} (h : Shape p) (op : Op) : Shape (p.step op) := by
  cases op with
  | receiveByte value => exact receiveByte_shape h value
  | ejectPage => exact h.congr (ejectPage_parserKept p)
  | reset => exact reset_shape p

theorem step_inRange {p : ImageWriterII} (h : Shape p) (hr : InRange p) (op : Op) :
    InRange (p.step op) ↔ CountsOk p op := by
  cases op with
  | receiveByte value => exact receiveByte_inRange h hr value
  | ejectPage => exact iff_of_true (hr.congr (ejectPage_parserKept p)) trivial
  | reset => exact iff_of_true (.of_zero rfl) trivial

/-- The parser of a new printer gets back to text through a run exactly if no graphics count in
    it is below zero. -/
theorem inStep_iff (ops : List Op) :
    (∀ done, done <+: ops → InStep (run step {} done)) ↔ Guarded step CountsOk {} ops := by
  have hshape : Shape {} := .of_zero rfl (by decide) (by decide)
  have hiff : (∀ done, done <+: ops →
      Shape (run step {} done) ∧ InRange (run step {} done)) ↔ Guarded step CountsOk {} ops :=
    prefixes_inv_iff_guarded (I := fun p => Shape p ∧ InRange p)
      (fun p op h => (and_iff_right (step_shape h.1 op)).trans (step_inRange h.1 h.2 op))
      ⟨hshape, .of_zero rfl⟩ ops
  rw [← hiff]
  refine forall₂_congr fun done _ => ?_
  have hdone := run_inv (I := Shape) (fun _ op h => step_shape h op) hshape done
  rw [inStep_iff_inRange hdone, and_iff_right hdone]

/-- ESC G with the count "  -1". -/
theorem negative_count :
    ¬ ∀ ops : List Op, InStep (run step {} ops) := by
  intro h
  have hbounded := (h ([0x1b, 0x47, 0x20, 0x20, 0x2d, 0x31].map .receiveByte)).expected
  exact absurd hbounded (by decide)

end ImageWriterII

end CuteMac.Printer
