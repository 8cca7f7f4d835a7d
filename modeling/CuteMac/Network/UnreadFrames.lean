/-
  The frames that wait for the guest.

  * `readPacket`, `follow`: how the guest reads the ring, from link to link;
  * `freePages`, `Free`: the pages from CURR up to BNRY;
  * `Session`: the controller, and the frames that it accepted and the guest has
    not released;
  * `Inv`, `step_inv`: the unread frames stand between BNRY and CURR;
  * `run_ring`: in a run in which no frame takes the last free page without
    ending it, they are what the guest reads.
-/
import CuteMac.Network.ReceiveRing

namespace CuteMac.Network

open Machine

namespace Dp8390

/-! ## Reading the ring -/

def pages (s : Dp8390) : Nat := s.regs.pstop.toNat - s.regs.pstart.toNat

/-- The byte at a position from the first page of the ring on. -/
def ringByte (s : Dp8390) (n : Nat) : UInt8 :=
  s.packetRam.read (addr s.regs.pstart.toNat s.pages n)

/-- The frame behind the header at a page, and the page of the next header. -/
def readPacket (s : Dp8390) (page : UInt8) : List UInt8 × UInt8 :=
  let base := 256 * (page.toNat - s.regs.pstart.toNat)
  let length := (s.ringByte (base + 2)).toNat + 256 * (s.ringByte (base + 3)).toNat - 4
  ((List.range length).map fun i => s.ringByte (base + 4 + i), s.ringByte (base + 1))

/-- The frames from a page up to CURR. -/
def follow (s : Dp8390) : Nat → UInt8 → List (List UInt8)
  | 0, _ => []
  | fuel + 1, page =>
    if page = s.regs.curr then []
    else (s.readPacket page).1 :: follow s fuel (s.readPacket page).2

/-- The page that `count` links lead to. -/
def link (s : Dp8390) : Nat → UInt8 → UInt8
  | 0, page => page
  | count + 1, page => link s count (s.readPacket page).2

/-! ## The free pages -/

/-- How many pages lie from `x` up to `y`. -/
def distance (s : Dp8390) (x y : UInt8) : Nat := (y.toNat + s.pages - x.toNat) % s.pages

def InRing (s : Dp8390) (page : UInt8) : Prop :=
  s.regs.pstart.toNat ≤ page.toNat ∧ page.toNat < s.regs.pstop.toNat

/-- The pages from CURR up to BNRY; where they are the same, the ring is empty. -/
def freePages (s : Dp8390) : Nat :=
  if s.regs.curr = s.regs.bnry then s.pages else s.distance s.regs.curr s.regs.bnry

/-- The address lies in a free page. -/
def Free (s : Dp8390) (a : Nat) : Prop :=
  a < 0x10000 ∧ s.InRing (UInt8.ofNat (a / 256)) ∧
    s.distance s.regs.curr (UInt8.ofNat (a / 256)) < s.freePages

/-- The frame takes the last free page, and does not end it. -/
def Fills (s : Dp8390) (frame : List UInt8) : Prop :=
  256 * (s.freePages - 1) < (padded frame).length + 4 ∧ (padded frame).length + 4 < 256 * s.freePages

/-- The frame is stored when it is received. -/
def Stores (s : Dp8390) (frame : List UInt8) : Prop :=
  s.Admits frame ∧ (storeBytes s.regs s.packetRam (frame.take 0xffff)
    ((startOffset s.regs + 4) % 0x10000)).2.isSome

instance (s : Dp8390) (page : UInt8) : Decidable (s.InRing page) :=
  inferInstanceAs (Decidable (_ ∧ _))

instance (s : Dp8390) (frame : List UInt8) : Decidable (s.Fills frame) :=
  inferInstanceAs (Decidable (_ ∧ _))

instance (s : Dp8390) (frame : List UInt8) : Decidable (s.Stores frame) :=
  inferInstanceAs (Decidable (_ ∧ _))

/-! ## Positions and pages -/

section
variable {s : Dp8390} {boundary : Nat}

/-- The distance of two pages whose positions are less than a ring apart. -/
theorem distance_eq {x y : UInt8} {a e : Nat} (hx : x.toNat = s.regs.pstart.toNat + a % s.pages)
    (hy : y.toNat = s.regs.pstart.toNat + e % s.pages) (hle : a ≤ e) (hlt : e < a + s.pages) :
    s.distance x y = e - a := by
  obtain ⟨d, rfl⟩ := Nat.exists_eq_add_of_le hle
  have hr : a % s.pages < s.pages := Nat.mod_lt _ (by omega)
  rw [← Nat.mod_add_mod] at hy
  rw [distance, hx, hy]
  by_cases h : a % s.pages + d < s.pages
  · have hmod : (a % s.pages + d) % s.pages = a % s.pages + d := Nat.mod_eq_of_lt h
    have hsub : s.regs.pstart.toNat + (a % s.pages + d) + s.pages -
        (s.regs.pstart.toNat + a % s.pages) = d + s.pages := by omega
    rw [hmod, hsub, Nat.add_mod_right, Nat.mod_eq_of_lt (by omega)]
    omega
  · have hmod : (a % s.pages + d) % s.pages = a % s.pages + d - s.pages := by
      rw [Nat.mod_eq_sub_mod (by omega), Nat.mod_eq_of_lt (by omega)]
    have hsub : s.regs.pstart.toNat + (a % s.pages + d - s.pages) + s.pages -
        (s.regs.pstart.toNat + a % s.pages) = d := by omega
    rw [hmod, hsub, Nat.mod_eq_of_lt (by omega)]
    omega

/-- The page at a distance from another one. -/
theorem toNat_of_distance {x y : UInt8} {a : Nat}
    (hx : x.toNat = s.regs.pstart.toNat + a % s.pages) (hy : s.InRing y) :
    y.toNat = s.regs.pstart.toNat + (a + s.distance x y) % s.pages := by
  obtain ⟨hlo, hhi⟩ := hy
  have hpages : s.pages = s.regs.pstop.toNat - s.regs.pstart.toNat := rfl
  have hr : a % s.pages < s.pages := Nat.mod_lt _ (by omega)
  rw [distance, Nat.add_mod_mod, ← Nat.mod_add_mod, hx,
    show a % s.pages + (y.toNat + s.pages - (s.regs.pstart.toNat + a % s.pages)) =
      y.toNat - s.regs.pstart.toNat + s.pages by omega, Nat.add_mod_right,
    Nat.mod_eq_of_lt (by omega)]
  omega

theorem freePages_eq (h : Ring s.regs s.regs.pstart.toNat s.pages boundary) {c : Nat}
    (hcurr : s.regs.curr.toNat = s.regs.pstart.toNat + c % s.pages) (hb : boundary ≤ c)
    (hc : c < boundary + s.pages) : s.freePages = boundary + s.pages - c := by
  unfold freePages
  by_cases he : s.regs.curr = s.regs.bnry
  · have hmod : c % s.pages = boundary % s.pages := by
      have h1 := h.bnry
      rw [← he, hcurr] at h1
      omega
    have := mod_inj boundary hb hc (by omega) (by omega) hmod
    rw [if_pos he]
    omega
  · have hne : c ≠ boundary := by
      rintro rfl
      exact he (UInt8.toNat_inj.1 (hcurr.trans h.bnry.symm))
    have hbnry : s.regs.bnry.toNat = s.regs.pstart.toNat + (boundary + s.pages) % s.pages := by
      rw [Nat.add_mod_right]
      exact h.bnry
    rw [if_neg he]
    exact distance_eq hcurr hbnry (by omega) (by omega)

/-- The positions from CURR up to BNRY are free. -/
theorem free_addr (h : Ring s.regs s.regs.pstart.toNat s.pages boundary) {c : Nat}
    (hcurr : s.regs.curr.toNat = s.regs.pstart.toNat + c % s.pages) (hb : boundary ≤ c)
    (hc : c < boundary + s.pages) {n : Nat} (hlo : 256 * c ≤ n)
    (hhi : n < 256 * (boundary + s.pages)) :
    s.Free (addr s.regs.pstart.toNat s.pages n) := by
  have hlt := addr_lt h.nonempty h.fits n
  have hr := Nat.mod_lt (n / 256) h.nonempty
  have hfits := h.fits
  have hstop := h.stop
  have hpage : addr s.regs.pstart.toNat s.pages n / 256 =
      s.regs.pstart.toNat + n / 256 % s.pages := by
    unfold addr
    omega
  have hnat : (UInt8.ofNat (addr s.regs.pstart.toNat s.pages n / 256)).toNat =
      s.regs.pstart.toNat + n / 256 % s.pages := by
    rw [UInt8.toNat_ofNat', hpage, Nat.mod_eq_of_lt (by omega)]
  refine ⟨by omega, ⟨by omega, by omega⟩, ?_⟩
  rw [distance_eq hcurr hnat (by omega) (by omega), freePages_eq h hcurr hb hc]
  omega

/-! ## Following the links -/

/-- A packet that stands in the ring is what the guest reads. -/
theorem readPacket_eq (h : Ring s.regs s.regs.pstart.toNat s.pages boundary) {a : Nat}
    {page rsr next : UInt8} {frame : List UInt8}
    (hpage : page.toNat = s.regs.pstart.toNat + a % s.pages) (hlen : frame.length < 0x10000 - 4)
    (hholds : Holds s.regs.pstart.toNat s.pages s.packetRam (256 * a)
      (header rsr next frame.length ++ frame)) :
    s.readPacket page = (frame, next) := by
  have hbyte : ∀ i, s.ringByte (256 * (page.toNat - s.regs.pstart.toNat) + i) =
      s.packetRam (addr s.regs.pstart.toNat s.pages (256 * a + i)) := by
    intro i
    have hlt := addr_lt h.nonempty h.fits (256 * a + i)
    have h1 : (256 * (a % s.pages) + i) / 256 % s.pages = (256 * a + i) / 256 % s.pages := by
      rw [show (256 * (a % s.pages) + i) / 256 = a % s.pages + i / 256 by omega,
        show (256 * a + i) / 256 = a + i / 256 by omega, Nat.mod_add_mod]
    have h2 : (256 * (a % s.pages) + i) % 256 = (256 * a + i) % 256 := by omega
    have haddr : addr s.regs.pstart.toNat s.pages (256 * (a % s.pages) + i) =
        addr s.regs.pstart.toNat s.pages (256 * a + i) := by
      unfold addr
      rw [h1, h2]
    rw [ringByte, PacketRam.read, hpage, Nat.add_sub_cancel_left, haddr, Nat.mod_eq_of_lt (by omega)]
  have hhead : ∀ (i : Nat) (hi : i < 4), s.ringByte (256 * (page.toNat - s.regs.pstart.toNat) + i) =
      (header rsr next frame.length)[i] := by
    intro i hi
    rw [hbyte, hholds i (by rw [List.length_append]; exact Nat.lt_add_right _ hi),
      List.getElem_append_left hi]
  have hdata : ∀ (i : Nat) (hi : i < frame.length),
      s.ringByte (256 * (page.toNat - s.regs.pstart.toNat) + 4 + i) = frame[i] := by
    intro i hi
    rw [Nat.add_assoc, hbyte, hholds (4 + i) (by rw [List.length_append]; exact Nat.add_lt_add_left hi 4),
      List.getElem_append_right (Nat.le_add_right 4 i)]
    congr 1
    exact Nat.add_sub_cancel_left 4 i
  have hlength : (s.ringByte (256 * (page.toNat - s.regs.pstart.toNat) + 2)).toNat +
      256 * (s.ringByte (256 * (page.toNat - s.regs.pstart.toNat) + 3)).toNat - 4 = frame.length := by
    rw [hhead 2 (by omega), hhead 3 (by omega)]
    show (UInt8.ofNat (frame.length + 4)).toNat +
      256 * (UInt8.ofNat ((frame.length + 4) % 0x10000 / 256)).toNat - 4 = frame.length
    rw [UInt8.toNat_ofNat', UInt8.toNat_ofNat']
    omega
  have hnext : s.ringByte (256 * (page.toNat - s.regs.pstart.toNat) + 1) = next :=
    hhead 1 (by omega)
  rw [readPacket]
  simp only [hlength, hnext]
  refine Prod.ext (List.ext_getElem (by simp) fun i h1 h2 => ?_) rfl
  simpa using hdata i h2

theorem follow_eq (h : Ring s.regs s.regs.pstart.toNat s.pages boundary) {frames : List (List UInt8)}
    {c : Nat} (hcurr : s.regs.curr.toNat = s.regs.pstart.toNat + c % s.pages)
    (hc : c < boundary + s.pages) :
    ∀ {fuel a : Nat} {page : UInt8}, frames.length < fuel → boundary ≤ a →
      page.toNat = s.regs.pstart.toNat + a % s.pages →
      Chain s.regs.pstart.toNat s.pages s.packetRam a frames c → s.follow fuel page = frames := by
  induction frames with
  | nil =>
    rintro (_ | fuel) a page hf hb hpage hchain
    · exact absurd hf (Nat.not_lt_zero _)
    · obtain rfl : a = c := hchain
      rw [follow, if_pos (UInt8.toNat_inj.1 (hpage.trans hcurr.symm))]
  | cons frame frames ih =>
    rintro (_ | fuel) a page hf hb hpage ⟨⟨hlen, rsr, next, hnext, hholds⟩, htail⟩
    · exact absurd hf (Nat.not_lt_zero _)
    · have hpos := pagesOf_pos frame.length
      have hle := htail.le
      have hne : page ≠ s.regs.curr := by
        rintro rfl
        have hmod : a % s.pages = c % s.pages := by omega
        have := mod_inj boundary hb (by omega) (by omega) hc hmod
        omega
      rw [follow, if_neg hne, readPacket_eq h hpage hlen hholds]
      have hf' : frames.length < fuel := Nat.lt_of_succ_lt_succ hf
      rw [ih hf' (by omega) hnext htail]

/-- The links of a chain lead to the rest of it. -/
theorem link_eq (h : Ring s.regs s.regs.pstart.toNat s.pages boundary) {c : Nat} (count : Nat) :
    ∀ {a : Nat} {page : UInt8} {frames : List (List UInt8)}, count ≤ frames.length →
      page.toNat = s.regs.pstart.toNat + a % s.pages →
      Chain s.regs.pstart.toNat s.pages s.packetRam a frames c →
      ∃ a', a ≤ a' ∧ (s.link count page).toNat = s.regs.pstart.toNat + a' % s.pages ∧
        Chain s.regs.pstart.toNat s.pages s.packetRam a' (frames.drop count) c := by
  induction count with
  | zero => exact fun {a} _ _ _ hpage hchain => ⟨a, Nat.le_refl a, hpage, hchain⟩
  | succ count ih =>
    rintro a page (_ | ⟨frame, frames⟩) hcount hpage hchain
    · exact absurd hcount (Nat.not_succ_le_zero count)
    · obtain ⟨⟨hlen, rsr, next, hnext, hholds⟩, htail⟩ := hchain
      obtain ⟨a', hle, hlink, hchain'⟩ := ih (Nat.le_of_succ_le_succ hcount) hnext htail
      refine ⟨a', by omega, ?_, hchain'⟩
      rw [link, readPacket_eq h hpage hlen hholds]
      exact hlink

theorem receiveFrame_eq (s : Dp8390) (frame : List UInt8) :
    s.receiveFrame frame = s.receive frame := by
  unfold receiveFrame
  cases frame with
  | nil => exact (receive_ignored fun h => absurd h.2.1 (by simp)).symm
  | cons byte frame => rfl

end

end Dp8390

/-! ## Sessions -/

structure Session where
  nic : Dp8390
  /-- the page of the first unread frame, and the frames that were accepted and not released,
      as they were stored -/
  first : UInt8
  unread : List (List UInt8)

namespace Session

/-- A frame comes from the network, or the guest is done with `count` frames and moves the
    boundary. -/
inductive Op where
  | receive (frame : List UInt8)
  | release (count : Nat) (boundary : UInt8)

def step (t : Session) : Op → Session
  | .receive frame =>
    { t with
      nic := t.nic.receiveFrame frame
      unread := if t.nic.Stores frame then t.unread ++ [padded frame] else t.unread }
  | .release count boundary =>
    { nic := t.nic.csWrite 3 boundary
      first := t.nic.link count t.first
      unread := t.unread.drop count }

/-- The guest moves the boundary through the registers of page 0, and not past the frames that
    it has read. -/
def ReleaseOk (t : Session) (count : Nat) (boundary : UInt8) : Prop :=
  t.nic.regs.cr &&& 0xc0 = 0 ∧ count ≤ t.unread.length ∧ t.nic.InRing boundary ∧
    t.nic.distance t.nic.regs.bnry boundary ≤
      t.nic.distance t.nic.regs.bnry (t.nic.link count t.first)

/-- What the guest may do, and what must not come from the network. -/
def Legal (t : Session) : Op → Prop
  | .receive frame => t.nic.Admits frame → ¬ t.nic.Fills frame
  | .release count boundary => t.ReleaseOk count boundary

instance (t : Session) : ∀ op, Decidable (t.Legal op)
  | .receive frame => inferInstanceAs (Decidable (t.nic.Admits frame → ¬ t.nic.Fills frame))
  | .release _ _ => inferInstanceAs (Decidable (_ ∧ _ ∧ _ ∧ _))

/-- A frame is stored, refused with the overflow flag, or not looked at; only free pages are
    written. -/
def StepOk (t : Session) : Op → Prop
  | .receive frame =>
    (∀ a, ¬ t.nic.Free a → (t.step (.receive frame)).nic.packetRam a = t.nic.packetRam a) ∧
      ((t.step (.receive frame)).unread = t.unread ++ [padded frame] ∨
        (t.step (.receive frame)).unread = t.unread ∧
            (t.step (.receive frame)).nic.regs.curr = t.nic.regs.curr ∧
            (t.step (.receive frame)).nic.regs.isr &&& isrReceiveOverflow ≠ 0 ∨
        ¬ t.nic.Admits frame ∧ t.step (.receive frame) = t)
  | .release _ _ => True

/-- The links from the first unread frame to CURR lead to what was accepted. -/
def Intact (t : Session) : Prop := t.nic.follow t.nic.pages t.first = t.unread

/-- The unread frames stand between BNRY and CURR. -/
structure Inv (t : Session) (boundary head tail : Nat) : Prop where
  ring : Ring t.nic.regs t.nic.regs.pstart.toNat t.nic.pages boundary
  unread : t.first.toNat = t.nic.regs.pstart.toNat + head % t.nic.pages
  curr : t.nic.regs.curr.toNat = t.nic.regs.pstart.toNat + tail % t.nic.pages
  behind : boundary ≤ head
  before : tail < boundary + t.nic.pages
  chain : Chain t.nic.regs.pstart.toNat t.nic.pages t.nic.packetRam head t.unread tail

variable {t : Session} {boundary head tail : Nat}

theorem Inv.intact (h : t.Inv boundary head tail) : t.Intact := by
  have hle := h.chain.le
  have hbehind := h.behind
  have hbefore := h.before
  exact Dp8390.follow_eq h.ring h.curr h.before (by omega) h.behind h.unread h.chain

/-- The invariant, where only the memory, CURR and the status of the controller changed. -/
theorem Inv.next (h : t.Inv boundary head tail) {nic : Dp8390} {unread : List (List UInt8)}
    {tail' : Nat} (hs : SameSetup t.nic nic)
    (hcurr : nic.regs.curr.toNat = t.nic.regs.pstart.toNat + tail' % t.nic.pages)
    (hbefore : tail' < boundary + t.nic.pages)
    (hchain : Chain t.nic.regs.pstart.toNat t.nic.pages nic.packetRam head unread tail') :
    Inv ⟨nic, t.first, unread⟩ boundary head tail' := by
  have hpages : nic.pages = t.nic.pages := by rw [Dp8390.pages, hs.pstop, hs.pstart]; rfl
  constructor
  · constructor
    · rfl
    · rw [hs.pstop, hs.pstart, hpages]; exact h.ring.stop
    · rw [hpages]; exact h.ring.nonempty
    · rw [hs.bnry, hs.pstart, hpages]; exact h.ring.bnry
  · rw [hs.pstart, hpages]; exact h.unread
  · rw [hs.pstart, hpages]; exact hcurr
  · exact h.behind
  · rw [hpages]; exact hbefore
  · rw [hs.pstart, hpages]; exact hchain

theorem step_receive (h : t.Inv boundary head tail) {frame : List UInt8}
    (hok : t.Legal (.receive frame)) :
    (∃ tail', (t.step (.receive frame)).Inv boundary head tail') ∧ t.StepOk (.receive frame) := by
  have hb : boundary ≤ tail := Nat.le_trans h.behind (Nat.le_trans (Nat.le_add_right _ _) h.chain.le)
  have hfree := Dp8390.freePages_eq h.ring h.curr hb h.before
  have hbefore := h.before
  have hsub : ∀ a, ¬ t.nic.Free a → ∀ m, 256 * tail ≤ m → m < 256 * (boundary + t.nic.pages) →
      a ≠ addr t.nic.regs.pstart.toNat t.nic.pages m := by
    rintro a ha m hlo hhi rfl
    exact ha (Dp8390.free_addr h.ring h.curr hb h.before hlo hhi)
  have hbehind := h.behind
  by_cases ha : t.nic.Admits frame
  swap
  · -- the controller does not look at the frame
    have hstores : ¬ t.nic.Stores frame := fun hs => ha hs.1
    have hstep : t.step (.receive frame) = t := by
      rw [step, if_neg hstores, Dp8390.receiveFrame_eq, receive_ignored ha]
    refine ⟨⟨tail, ?_⟩, ?_, .inr (.inr ⟨ha, hstep⟩)⟩
    · rw [hstep]; exact h
    · rw [hstep]; exact fun _ _ => rfl
  obtain ⟨-, hs4⟩ := startOffset_eq h.ring h.curr
  have hlen : (frame.take 0xffff).length = min frame.length 0xffff := by
    rw [List.length_take, Nat.min_comm]
  by_cases hfits : 256 * tail + 4 + min frame.length 0xffff < 256 * (boundary + t.nic.pages)
  · -- the frame ends before BNRY
    obtain ⟨hsetup, hcurr, rsr, hw⟩ := receive_stored h.ring h.curr hb ha hfits
    obtain ⟨ram, hst, -⟩ := storeBytes_fits h.ring (frame.take 0xffff) t.nic.packetRam
      (256 * tail + 4) (by omega) (by rw [hlen]; exact hfits)
    have hstores : t.nic.Stores frame := ⟨ha, by rw [hs4, hst]; rfl⟩
    have hstep : t.step (.receive frame) =
        ⟨t.nic.receive frame, t.first, t.unread ++ [padded frame]⟩ := by
      rw [step, if_pos hstores, Dp8390.receiveFrame_eq]
    have hpad := length_padded frame
    have hnot : (padded frame).length + 4 ≤ 256 * (t.nic.freePages - 1) := by
      have hnf := hok ha
      rw [Dp8390.Fills, not_and_or] at hnf
      omega
    have hend : tail + pagesOf (padded frame).length < boundary + t.nic.pages := by
      unfold pagesOf
      omega
    have hpages : 4 + (padded frame).length ≤ 256 * pagesOf (padded frame).length := by
      unfold pagesOf
      omega
    -- what is written lies in the free pages
    have hfour : ∀ rsr next, (Dp8390.header rsr next (padded frame).length ++ padded frame).length =
        4 + (padded frame).length := fun _ _ => List.length_append
    have hchain : Chain t.nic.regs.pstart.toNat t.nic.pages (t.nic.receive frame).packetRam head
        (t.unread ++ [padded frame]) (tail + pagesOf (padded frame).length) := by
      have hold : Chain t.nic.regs.pstart.toNat t.nic.pages (t.nic.receive frame).packetRam head
          t.unread tail := h.chain.frame fun n hlo hhi => by
        refine hw.same _ fun i hi he => ?_
        rw [hfour] at hi
        have := addr_inj boundary (by omega) (by omega) (by omega) (by omega) he
        omega
      have hfits' := h.ring.fits
      exact hold.snoc ⟨⟨by omega, rsr, _, hcurr, hw.new⟩, rfl⟩
    refine ⟨⟨tail + pagesOf (padded frame).length, ?_⟩, fun a hfree' => ?_, .inl ?_⟩
    · rw [hstep]; exact h.next hsetup hcurr hend hchain
    · rw [hstep]
      refine hw.same a fun i hi => hsub a hfree' _ (by omega) ?_
      rw [hfour] at hi
      omega
    · rw [hstep]
  · -- the frame reaches BNRY
    obtain ⟨hsetup, hcurr, hisr, hsame⟩ :=
      receive_refused h.ring h.curr hb h.before ha (Nat.le_of_not_lt hfits)
    obtain ⟨ram, hst, -⟩ := storeBytes_overflows h.ring (frame.take 0xffff) t.nic.packetRam
      (256 * tail + 4) (by omega) (by omega) (by rw [hlen]; omega)
    have hstores : ¬ t.nic.Stores frame := by
      rintro ⟨-, hs⟩
      rw [hs4, hst] at hs
      exact absurd hs (by simp)
    have hstep : t.step (.receive frame) = ⟨t.nic.receive frame, t.first, t.unread⟩ := by
      rw [step, if_neg hstores, Dp8390.receiveFrame_eq]
    have hchain : Chain t.nic.regs.pstart.toNat t.nic.pages (t.nic.receive frame).packetRam head
        t.unread tail := h.chain.frame fun n hlo hhi => by
      refine hsame _ fun m hm hm' he => ?_
      have := addr_inj boundary (by omega) (by omega) (by omega) (by omega) he
      omega
    have hcurr' : (t.nic.receive frame).regs.curr.toNat =
        t.nic.regs.pstart.toNat + tail % t.nic.pages := by rw [hcurr]; exact h.curr
    refine ⟨⟨tail, ?_⟩, fun a hfree' => ?_, .inr (.inl ?_)⟩
    · rw [hstep]; exact h.next hsetup hcurr' h.before hchain
    · rw [hstep]; exact hsame a (hsub a hfree')
    · rw [hstep]; exact ⟨rfl, hcurr, hisr⟩

theorem csWrite_bnry {s : Dp8390} (h : s.regs.cr &&& 0xc0 = 0) (data : UInt8) :
    s.csWrite 3 data = { s with regs.bnry := data } := by
  have hsel : s.select 3 = 3 := by rw [Dp8390.select, h]; rfl
  rw [Dp8390.csWrite, hsel]
  rfl

theorem step_release (h : t.Inv boundary head tail) {count : Nat} {data : UInt8}
    (hok : t.ReleaseOk count data) :
    ∃ boundary' head', (t.step (.release count data)).Inv boundary' head' tail := by
  obtain ⟨hcr, hcount, hin, hdist⟩ := hok
  obtain ⟨head', hle, hlink, hchain⟩ := Dp8390.link_eq h.ring count hcount h.unread h.chain
  have hbehind := h.behind
  have hbefore := h.before
  have htail := hchain.le
  rw [Dp8390.distance_eq h.ring.bnry hlink (by omega) (by omega)] at hdist
  have hdata := Dp8390.toNat_of_distance h.ring.bnry hin
  refine ⟨boundary + t.nic.distance t.nic.regs.bnry data, head', ?_⟩
  rw [step, csWrite_bnry hcr]
  exact
    { ring := ⟨rfl, h.ring.stop, h.ring.nonempty, hdata⟩
      unread := hlink
      curr := h.curr
      behind := by omega
      before := by show tail < _ + t.nic.pages; omega
      chain := hchain }

theorem step_inv (op : Op) (hok : t.Legal op) (h : ∃ b a c, t.Inv b a c) :
    (∃ b a c, (t.step op).Inv b a c) ∧ t.StepOk op := by
  obtain ⟨b, a, c, h⟩ := h
  cases op with
  | receive frame =>
    obtain ⟨⟨c', h'⟩, hs⟩ := step_receive h hok
    exact ⟨⟨b, a, c', h'⟩, hs⟩
  | release count data =>
    obtain ⟨b', a', h'⟩ := step_release h hok
    exact ⟨⟨b', a', c, h'⟩, trivial⟩

/-- CURR and BNRY are pages of the ring, and nothing was received yet. -/
theorem start_inv {nic : Dp8390} (hp : nic.regs.pstart < nic.regs.pstop)
    (hc : nic.InRing nic.regs.curr) (hb : nic.InRing nic.regs.bnry) :
    ∃ b a c, Inv ⟨nic, nic.regs.curr, []⟩ b a c := by
  have hp' : nic.regs.pstart.toNat < nic.regs.pstop.toNat := UInt8.lt_iff_toNat_lt.1 hp
  have hpages : nic.pages = nic.regs.pstop.toNat - nic.regs.pstart.toNat := rfl
  obtain ⟨hc1, hc2⟩ := hc
  obtain ⟨hb1, hb2⟩ := hb
  have hpos : ∀ x : Nat, nic.regs.pstart.toNat ≤ x → x < nic.regs.pstop.toNat →
      x = nic.regs.pstart.toNat + (x - nic.regs.pstart.toNat) % nic.pages := by
    intro x h1 h2
    rw [Nat.mod_eq_of_lt (by omega)]
    omega
  have hring : Ring nic.regs nic.regs.pstart.toNat nic.pages
      (nic.regs.bnry.toNat - nic.regs.pstart.toNat) :=
    ⟨rfl, by omega, by omega, hpos _ hb1 hb2⟩
  by_cases hle : nic.regs.bnry.toNat ≤ nic.regs.curr.toNat
  · refine ⟨_, nic.regs.curr.toNat - nic.regs.pstart.toNat, _, hring, hpos _ hc1 hc2,
      hpos _ hc1 hc2, ?_, ?_, rfl⟩
    · omega
    · show nic.regs.curr.toNat - nic.regs.pstart.toNat < _ + nic.pages
      omega
  · -- BNRY stands in front of CURR
    have hcurr : nic.regs.curr.toNat = nic.regs.pstart.toNat +
        (nic.regs.curr.toNat - nic.regs.pstart.toNat + nic.pages) % nic.pages := by
      rw [Nat.add_mod_right]
      exact hpos _ hc1 hc2
    refine ⟨_, _, _, hring, hcurr, hcurr, ?_, ?_, rfl⟩
    · omega
    · show _ < _ + nic.pages
      omega

/-- As long as no frame takes the last free page without ending it, every frame is stored in
    free pages or refused, and the guest finds what was stored. -/
theorem run_ring (nic : Dp8390) (hp : nic.regs.pstart < nic.regs.pstop)
    (hc : nic.InRing nic.regs.curr) (hb : nic.InRing nic.regs.bnry) (ops : List Op)
    (hok : Guarded step Legal ⟨nic, nic.regs.curr, []⟩ ops) :
    Guarded step StepOk ⟨nic, nic.regs.curr, []⟩ ops ∧
      (run step ⟨nic, nic.regs.curr, []⟩ ops).Intact := by
  obtain ⟨hsteps, b, a, c, h⟩ := guarded_run_steps (I := fun t => ∃ b a c, t.Inv b a c)
    (fun _ op hl hi => step_inv op hl hi) (start_inv hp hc hb) hok
  exact ⟨hsteps, h.intact⟩

/-- A ring of two pages, the first of which is not free. -/
def smallRing : Dp8390 :=
  { regs := { cr := 0x22, pstart := 0x40, pstop := 0x42, bnry := 0x40, curr := 0x41, rcr := 0x04 } }

/-- A frame of sixty bytes to every station. -/
def broadcast (value : UInt8) : List UInt8 := List.replicate 6 0xff ++ List.replicate 54 value

theorem run_ring_small :
    Guarded step StepOk ⟨{ smallRing with regs.pstop := 0x44 }, 0x41, []⟩
        [.receive (broadcast 1), .release 1 0x42, .receive (broadcast 2)] ∧
      (run step ⟨{ smallRing with regs.pstop := 0x44 }, 0x41, []⟩
        [.receive (broadcast 1), .release 1 0x42, .receive (broadcast 2)]).Intact :=
  run_ring { smallRing with regs.pstop := 0x44 } (by decide) (by decide) (by decide)
    [.receive (broadcast 1), .release 1 0x42, .receive (broadcast 2)] (by decide +kernel)

/-- The first frame fills the free page, and CURR becomes BNRY; the second takes the page that
    the guest has not released, and the third the place of the first. -/
theorem full_looks_empty :
    smallRing.regs.pstart < smallRing.regs.pstop ∧ smallRing.InRing smallRing.regs.curr ∧
      smallRing.InRing smallRing.regs.bnry ∧ smallRing.regs.curr ≠ smallRing.regs.bnry ∧
      (run step ⟨smallRing, 0x41, []⟩
        [.receive (broadcast 1), .receive (broadcast 2)]).unread = [broadcast 1, broadcast 2] ∧
      ¬ (run step ⟨smallRing, 0x41, []⟩ [.receive (broadcast 1), .receive (broadcast 2)]).Intact ∧
      (run step ⟨smallRing, 0x41, []⟩
        [.receive (broadcast 1), .receive (broadcast 2), .receive (broadcast 3)]).nic.follow 2 0x41 =
          [broadcast 3] := by
  unfold Intact
  decide +kernel

end Session

end CuteMac.Network
