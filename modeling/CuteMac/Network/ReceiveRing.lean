/-
  The receive ring of the network controller.

  * `addr`: the address of a byte position that is counted on and on, from the
    first page of the ring;
  * `storeBytes_fits`, `storeBytes_overflows`: what the store loop writes;
  * `receive_cases`: a frame is ignored, refused or stored from CURR on;
  * `Session`: the controller, and the frames that the guest has not released;
    `Inv`: their headers link the first one to CURR, between BNRY and CURR;
  * `run_ring`: as long as no frame fills the last free page without ending it,
    nothing unread is lost.
-/
import CuteMac.Lib.Machine
import CuteMac.Lib.ShiftRegister
import CuteMac.Network.Dp8390

namespace CuteMac.Network

open ShiftRegister

/-! ## Positions in a ring -/

/-- The address of the byte position `n`, in a ring of `pages` pages from the page `first`
    on. -/
def addr (first pages n : Nat) : Nat := (first + n / 256 % pages) * 256 + n % 256

section
variable {first pages : Nat}

theorem mod_inj (lo : Nat) {x y : Nat} (hx : lo ≤ x) (hx' : x < lo + pages) (hy : lo ≤ y)
    (hy' : y < lo + pages) (h : x % pages = y % pages) : x = y := by
  wlog hxy : x ≤ y generalizing x y
  · exact (this hy hy' hx hx' h.symm (by omega)).symm
  have hd : pages ∣ y - x := Nat.dvd_of_mod_eq_zero (Nat.sub_mod_eq_zero_of_mod_eq h.symm)
  have := Nat.eq_zero_of_dvd_of_lt hd (by omega)
  omega

theorem addr_inj (lo : Nat) {m n : Nat} (hm : 256 * lo ≤ m) (hm' : m < 256 * (lo + pages))
    (hn : 256 * lo ≤ n) (hn' : n < 256 * (lo + pages)) (h : addr first pages m = addr first pages n) :
    m = n := by
  unfold addr at h
  have hmod : m / 256 % pages = n / 256 % pages := by omega
  have hpage : m / 256 = n / 256 :=
    mod_inj lo (by omega) (by omega) (by omega) (by omega) hmod
  omega

theorem addr_lt (hp : 0 < pages) (hr : first + pages ≤ 255) (n : Nat) :
    addr first pages n < 255 * 256 := by
  have := Nat.mod_lt (n / 256) hp
  unfold addr
  omega

theorem addr_add {n i : Nat} (h : n % 256 + i < 256) :
    addr first pages (n + i) = addr first pages n + i := by
  have h1 : (n + i) / 256 = n / 256 := by omega
  have h2 : (n + i) % 256 = n % 256 + i := by omega
  rw [addr, addr, h1, h2]
  omega

/-- The next page, which is the first one after the last. -/
theorem addr_next (hp : 0 < pages) {n : Nat} (h : (n + 1) % 256 = 0) :
    addr first pages (n + 1) =
      if addr first pages n + 1 = (first + pages) * 256 then first * 256
      else addr first pages n + 1 := by
  have h1 : (n + 1) / 256 = n / 256 + 1 := by omega
  have h2 : n % 256 = 255 := by omega
  have hlt := Nat.mod_lt (n / 256) hp
  rw [addr, addr, h1, h, h2, ← Nat.mod_add_mod]
  by_cases hl : n / 256 % pages + 1 = pages
  · rw [hl, Nat.mod_self, if_pos (by omega)]
    omega
  · rw [Nat.mod_eq_of_lt (by omega), if_neg (by omega)]
    omega

/-! ## What is written where -/

/-- `ram'` is `ram` with `bytes` written from the position `n` on. -/
structure Wrote (first pages : Nat) (ram ram' : PacketRam) (n : Nat) (bytes : List UInt8) :
    Prop where
  new : ∀ i (h : i < bytes.length), ram' (addr first pages (n + i)) = bytes[i]
  same : ∀ a, (∀ i < bytes.length, a ≠ addr first pages (n + i)) → ram' a = ram a

variable {ram ram' ram'' : PacketRam} {n : Nat} {xs ys : List UInt8}

theorem Wrote.nil (ram : PacketRam) (n : Nat) : Wrote first pages ram ram n [] :=
  ⟨fun i h => absurd h (Nat.not_lt_zero i), fun _ _ => rfl⟩

/-- One piece after another. -/
theorem Wrote.append (lo : Nat) (hx : Wrote first pages ram ram' n xs)
    (hy : Wrote first pages ram' ram'' (n + xs.length) ys) (hlo : 256 * lo ≤ n)
    (hhi : n + xs.length + ys.length ≤ 256 * (lo + pages)) :
    Wrote first pages ram ram'' n (xs ++ ys) := by
  constructor
  · intro i h
    rw [List.length_append] at h
    by_cases hi : i < xs.length
    · rw [List.getElem_append_left hi, ← hx.new i hi]
      refine hy.same _ fun j hj he => ?_
      have := addr_inj lo (by omega) (by omega) (by omega) (by omega) he
      omega
    · rw [List.getElem_append_right (by omega), ← hy.new (i - xs.length) (by omega)]
      congr 2
      omega
  · intro a ha
    rw [List.length_append] at ha
    rw [hy.same a fun j hj => ?_, hx.same a fun i hi => ha i (by omega)]
    rw [Nat.add_assoc]
    exact ha _ (by omega)

/-- A piece in front of one that is there. -/
theorem Wrote.prepend (lo : Nat) (hy : Wrote first pages ram ram' (n + xs.length) ys)
    (hx : Wrote first pages ram' ram'' n xs) (hlo : 256 * lo ≤ n)
    (hhi : n + xs.length + ys.length ≤ 256 * (lo + pages)) :
    Wrote first pages ram ram'' n (xs ++ ys) := by
  constructor
  · intro i h
    rw [List.length_append] at h
    by_cases hi : i < xs.length
    · rw [List.getElem_append_left hi, ← hx.new i hi]
    · have hj : i - xs.length < ys.length := by omega
      have hn : n + xs.length + (i - xs.length) = n + i := by omega
      rw [List.getElem_append_right (by omega), ← hy.new (i - xs.length) hj, hn]
      refine hx.same _ fun j hj he => ?_
      have := addr_inj lo (by omega) (by omega) (by omega) (by omega) he
      omega
  · intro a ha
    rw [List.length_append] at ha
    rw [hx.same a fun i hi => ha i (by omega), hy.same a fun j hj => ?_]
    rw [Nat.add_assoc]
    exact ha _ (by omega)

theorem Wrote.one (hp : 0 < pages) (hr : first + pages ≤ 255) (ram : PacketRam) (n : Nat)
    (value : UInt8) : Wrote first pages ram (ram.write (addr first pages n) value) n [value] := by
  have hlt := addr_lt hp hr n
  have hmod : addr first pages n % 0x10000 = addr first pages n := Nat.mod_eq_of_lt (by omega)
  constructor
  · intro i h
    have hi : i = 0 := by simpa using h
    subst hi
    simp [PacketRam.write, hmod]
  · intro a ha
    have hne : a ≠ addr first pages n := ha 0 (by simp)
    simp [PacketRam.write, hmod, hne]

/-- Bytes within a page. -/
theorem writeAll_wrote (hp : 0 < pages) (hr : first + pages ≤ 255) (values : List UInt8) :
    ∀ (ram : PacketRam) (n : Nat), n % 256 + values.length ≤ 256 →
      Wrote first pages ram (ram.writeAll values (addr first pages n)) n values := by
  induction values with
  | nil => exact fun ram n _ => Wrote.nil ram n
  | cons value values ih =>
    intro ram n hn
    have hn' : n % 256 + (values.length + 1) ≤ 256 := hn
    rw [PacketRam.writeAll]
    have hone := Wrote.one hp hr ram n value
    cases values with
    | nil => exact hone
    | cons v vs =>
      have hlen : n % 256 + 1 < 256 := by
        have : (v :: vs).length = vs.length + 1 := rfl
        omega
      have hnext : (addr first pages n + 1) % 0x10000 = addr first pages (n + 1) := by
        have := addr_lt hp hr (n + 1)
        rw [← addr_add hlen, Nat.mod_eq_of_lt (by omega)]
      rw [hnext]
      have hlen' : (v :: vs).length = vs.length + 1 := rfl
      have hhi : n + [value].length + (v :: vs).length ≤ 256 * (n / 256 + pages) := by
        rw [List.length_singleton]
        omega
      exact hone.append (n / 256) (ih _ (n + 1) (by omega)) (by omega) hhi

end

/-! ## The store loop -/

/-- The ring that the registers describe; BNRY is its page number `boundary`, counted on and
    on. -/
structure Ring (regs : Registers) (first pages boundary : Nat) : Prop where
  start : regs.pstart.toNat = first
  stop : regs.pstop.toNat = first + pages
  nonempty : 0 < pages
  bnry : regs.bnry.toNat = first + boundary % pages

section
variable {regs : Registers} {first pages boundary : Nat}

theorem Ring.fits (h : Ring regs first pages boundary) : first + pages ≤ 255 := by
  have := regs.pstop.toNat_lt
  have := h.stop
  omega

/-- What the loop does with one byte in the free part of the ring. -/
theorem storeBytes_cons (h : Ring regs first pages boundary) {n : Nat} (hlo : 256 * boundary ≤ n)
    (hhi : n < 256 * (boundary + pages)) (ram : PacketRam) (byte : UInt8) (bytes : List UInt8) :
    Dp8390.storeBytes regs ram (byte :: bytes) (addr first pages n) =
      if n + 1 = 256 * (boundary + pages) then (ram.write (addr first pages n) byte, none)
      else
        Dp8390.storeBytes regs (ram.write (addr first pages n) byte) bytes
          (addr first pages (n + 1)) := by
  have hlt := addr_lt h.nonempty h.fits n
  have hoff : addr first pages n % 256 = n % 256 := by unfold addr; omega
  have hmod : (addr first pages n + 1) % 0x10000 = addr first pages n + 1 :=
    Nat.mod_eq_of_lt (by omega)
  rw [Dp8390.storeBytes]
  simp only [hmod]
  by_cases hn : (n + 1) % 256 = 0
  · have hz : (addr first pages n + 1) % 256 = 0 := by omega
    have hnext : addr first pages (n + 1) = _ := addr_next h.nonempty hn
    have hwrap : (if (addr first pages n + 1) / 256 = regs.pstop.toNat then regs.pstart.toNat * 256
        else addr first pages n + 1) = addr first pages (n + 1) := by
      rw [hnext, h.start, h.stop]
      exact if_congr (by omega) rfl rfl
    rw [if_pos hz, hwrap]
    have hpage : addr first pages (n + 1) / 256 = first + (n + 1) / 256 % pages := by
      unfold addr; omega
    have hiff : addr first pages (n + 1) / 256 = regs.bnry.toNat ↔
        n + 1 = 256 * (boundary + pages) := by
      rw [hpage, h.bnry]
      constructor
      · intro he
        have hb : (n + 1) / 256 % pages = (boundary + pages) % pages := by
          rw [Nat.add_mod_right]; omega
        have := mod_inj (boundary + 1) (by omega) (by omega) (by omega) (by omega) hb
        omega
      · intro he
        have hq : (n + 1) / 256 = boundary + pages := by omega
        rw [hq, Nat.add_mod_right]
    exact if_congr hiff rfl rfl
  · have hz : (addr first pages n + 1) % 256 ≠ 0 := by omega
    rw [if_neg hz, if_neg (by omega), addr_add (by omega)]

/-- A frame that ends before the free part does is stored. -/
theorem storeBytes_fits (h : Ring regs first pages boundary) (bytes : List UInt8) :
    ∀ (ram : PacketRam) (n : Nat), 256 * boundary ≤ n →
      n + bytes.length < 256 * (boundary + pages) →
      ∃ ram', Dp8390.storeBytes regs ram bytes (addr first pages n) =
          (ram', some (addr first pages (n + bytes.length))) ∧
        Wrote first pages ram ram' n bytes := by
  induction bytes with
  | nil => exact fun ram n _ _ => ⟨ram, rfl, .nil ram n⟩
  | cons byte bytes ih =>
    intro ram n hlo hhi
    have hhi' : n + (bytes.length + 1) < 256 * (boundary + pages) := hhi
    obtain ⟨ram', he, hw⟩ := ih (ram.write (addr first pages n) byte) (n + 1) (by omega) (by omega)
    refine ⟨ram', ?_, ?_⟩
    · rw [storeBytes_cons h hlo (by omega), if_neg (by omega), he, List.length_cons]
      congr 3
      omega
    · have hone := Wrote.one h.nonempty h.fits ram n byte
      exact hone.append boundary hw hlo (by rw [List.length_singleton]; omega)

/-- A frame that does not is refused, after it has filled the free part. -/
theorem storeBytes_overflows (h : Ring regs first pages boundary) (bytes : List UInt8) :
    ∀ (ram : PacketRam) (n : Nat), 256 * boundary ≤ n → n < 256 * (boundary + pages) →
      256 * (boundary + pages) ≤ n + bytes.length →
      ∃ ram', Dp8390.storeBytes regs ram bytes (addr first pages n) = (ram', none) ∧
        ∀ a, (∀ m, n ≤ m → m < 256 * (boundary + pages) → a ≠ addr first pages m) →
          ram' a = ram a := by
  induction bytes with
  | nil =>
    intro ram n _ hhi hover
    rw [List.length_nil] at hover
    omega
  | cons byte bytes ih =>
    intro ram n hlo hhi hover
    have hone := Wrote.one h.nonempty h.fits ram n byte
    have hsame : ∀ a, (∀ m, n ≤ m → m < 256 * (boundary + pages) → a ≠ addr first pages m) →
        (ram.write (addr first pages n) byte) a = ram a := by
      intro a ha
      refine hone.same a fun i hi => ha _ (by omega) ?_
      rw [List.length_singleton] at hi
      omega
    rw [List.length_cons] at hover
    by_cases hlast : n + 1 = 256 * (boundary + pages)
    · exact ⟨_, by rw [storeBytes_cons h hlo hhi, if_pos hlast], hsame⟩
    · obtain ⟨ram', he, hw⟩ :=
        ih (ram.write (addr first pages n) byte) (n + 1) (by omega) (by omega) (by omega)
      refine ⟨ram', by rw [storeBytes_cons h hlo hhi, if_neg hlast, he], fun a ha => ?_⟩
      rw [hw a fun m hm hm' => ha m (by omega) hm', hsame a ha]

/-! ## One frame -/

/-- The bytes of a frame as they are stored. -/
def padded (frame : List UInt8) : List UInt8 :=
  frame.take 0xffff ++ List.replicate (60 - (frame.take 0xffff).length) 0

theorem length_padded (frame : List UInt8) : (padded frame).length = max (min frame.length 0xffff) 60 := by
  simp only [padded, List.length_append, List.length_take, List.length_replicate]
  omega

/-- The pages that a frame of `length` stored bytes and its header take. -/
def pagesOf (length : Nat) : Nat := (length + 4 + 255) / 256

/-- The controller looks at the frame. -/
def Dp8390.Admits (s : Dp8390) (frame : List UInt8) : Prop :=
  s.reset = false ∧ 6 ≤ frame.length ∧ (Dp8390.addressFilter s.regs frame).isSome

instance (s : Dp8390) (frame : List UInt8) : Decidable (s.Admits frame) :=
  inferInstanceAs (Decidable (_ ∧ _ ∧ _))

theorem receive_ignored {s : Dp8390} {frame : List UInt8} (h : ¬ s.Admits frame) :
    s.receive frame = s := by
  unfold Dp8390.receive
  split
  · rfl
  · rename_i hc
    simp only [not_or, Bool.not_eq_true, not_lt] at hc
    split
    · rfl
    · rename_i rsr hf
      exact absurd ⟨hc.1, hc.2.1, by rw [hf]; rfl⟩ h

/-- The registers that say where the ring is, and what frames are let through. -/
structure SameSetup (s s' : Dp8390) : Prop where
  cr : s'.regs.cr = s.regs.cr
  pstart : s'.regs.pstart = s.regs.pstart
  pstop : s'.regs.pstop = s.regs.pstop
  bnry : s'.regs.bnry = s.regs.bnry

theorem startOffset_eq (h : Ring regs first pages boundary) {c : Nat}
    (hcurr : regs.curr.toNat = first + c % pages) :
    Dp8390.startOffset regs = addr first pages (256 * c) ∧
      (Dp8390.startOffset regs + 4) % 0x10000 = addr first pages (256 * c + 4) := by
  have hlt := Nat.mod_lt c h.nonempty
  have hne : regs.curr ≠ regs.pstop := by
    intro he
    have hs := h.stop
    rw [← he, hcurr] at hs
    omega
  have hstart : Dp8390.startOffset regs = addr first pages (256 * c) := by
    rw [Dp8390.startOffset, if_neg hne, hcurr, addr]
    have h1 : 256 * c / 256 = c := by omega
    have h2 : 256 * c % 256 = 0 := by omega
    rw [h1, h2, Nat.add_zero]
  refine ⟨hstart, ?_⟩
  have hbound := addr_lt h.nonempty h.fits (256 * c + 4)
  have hadd : addr first pages (256 * c + 4) = addr first pages (256 * c) + 4 :=
    addr_add (by omega)
  rw [hstart, hadd, Nat.mod_eq_of_lt (by omega)]

theorem receive_eq {s : Dp8390} {frame : List UInt8} {c : Nat}
    (h : Ring s.regs first pages boundary) (hcurr : s.regs.curr.toNat = first + c % pages)
    (ha : s.Admits frame) :
    ∃ rsr, ∀ ram,
      (Dp8390.storeBytes s.regs s.packetRam (frame.take 0xffff) (addr first pages (256 * c + 4)) =
          (ram, none) →
        s.receive frame = Dp8390.receiveOverflow { s with packetRam := ram, regs.rsr := rsr }) ∧
      ∀ offset, Dp8390.storeBytes s.regs s.packetRam (frame.take 0xffff)
          (addr first pages (256 * c + 4)) = (ram, some offset) →
        s.receive frame = Dp8390.finishFrame { s with packetRam := ram, regs.rsr := rsr }
          (addr first pages (256 * c)) (frame.take 0xffff).length offset := by
  obtain ⟨hreset, hlen, hsome⟩ := ha
  obtain ⟨rsr, hrsr⟩ := Option.isSome_iff_exists.1 hsome
  have hne : s.regs.pstart ≠ s.regs.pstop := by
    intro he
    have h1 := h.start
    have h2 := h.stop
    have h3 := h.nonempty
    rw [he] at h1
    omega
  obtain ⟨hs, hs4⟩ := startOffset_eq h hcurr
  refine ⟨rsr, fun ram => ?_⟩
  have hskip : ¬ (s.reset = true ∨ frame.length < 6 ∨ s.regs.pstart = s.regs.pstop) := by
    simp only [hreset, hne, or_false, Bool.false_eq_true, false_or]
    omega
  rw [Dp8390.receive, if_neg hskip, hrsr]
  simp only [hs4]
  simp only [hs]
  exact ⟨fun hst => by rw [hst], fun offset hst => by rw [hst]⟩

theorem receive_refused {s : Dp8390} {frame : List UInt8} {c : Nat}
    (h : Ring s.regs first pages boundary) (hcurr : s.regs.curr.toNat = first + c % pages)
    (hb : boundary ≤ c) (hc : c < boundary + pages) (ha : s.Admits frame)
    (hover : 256 * (boundary + pages) ≤ 256 * c + 4 + min frame.length 0xffff) :
    SameSetup s (s.receive frame) ∧ (s.receive frame).regs.curr = s.regs.curr ∧
      (s.receive frame).regs.isr &&& isrReceiveOverflow ≠ 0 ∧
      ∀ a, (∀ m, 256 * c ≤ m → m < 256 * (boundary + pages) → a ≠ addr first pages m) →
        (s.receive frame).packetRam a = s.packetRam a := by
  obtain ⟨rsr, he⟩ := receive_eq h hcurr ha
  obtain ⟨ram, hst, hsame⟩ := storeBytes_overflows h (frame.take 0xffff) s.packetRam
    (256 * c + 4) (by omega) (by omega) (by rw [List.length_take]; omega)
  rw [(he ram).1 hst]
  refine ⟨⟨rfl, rfl, rfl, rfl⟩, rfl, ?_, fun a hm => hsame a fun m h1 h2 => hm m (by omega) h2⟩
  exact forall_byte (P := fun isr => (isr ||| isrReceiveOverflow) &&& isrReceiveOverflow ≠ 0)
    (by decide +kernel) s.regs.isr

/-- The page after the position `e`, and it is not the one behind the ring. -/
theorem nextPage_eq (h : Ring regs first pages boundary) (e : Nat) :
    (Dp8390.nextPage regs (addr first pages e)).toNat = first + (e + 255) / 256 % pages := by
  have hlt := Nat.mod_lt (e / 256) h.nonempty
  have hfits := h.fits
  have hpage : addr first pages e / 256 = first + e / 256 % pages := by unfold addr; omega
  have hoff : addr first pages e % 256 = e % 256 := by unfold addr; omega
  have hiff : ∀ x, x ≤ first + pages → (UInt8.ofNat x = regs.pstop ↔ x = first + pages) := by
    intro x hx
    rw [← UInt8.toNat_inj, h.stop, UInt8.toNat_ofNat', Nat.mod_eq_of_lt (by omega)]
  unfold Dp8390.nextPage
  simp only [hpage, hoff]
  by_cases he : e % 256 = 0
  · have hq : (e + 255) / 256 = e / 256 := by omega
    rw [if_neg (not_not.2 he), if_neg (by rw [hiff _ (by omega)]; omega), hq, UInt8.toNat_ofNat',
      Nat.mod_eq_of_lt (by omega)]
    rfl
  · have hq : (e + 255) / 256 = e / 256 + 1 := by omega
    have hm : (e / 256 + 1) % pages = (e / 256 % pages + 1) % pages := (Nat.mod_add_mod _ _ _).symm
    rw [if_pos he, hq, hm]
    by_cases hl : e / 256 % pages + 1 = pages
    · rw [if_pos ((hiff _ (by omega)).2 (by omega)), hl, Nat.mod_self, h.start]
      rfl
    · have hsmall : (e / 256 % pages + 1) % pages = e / 256 % pages + 1 :=
        Nat.mod_eq_of_lt (by omega)
      rw [if_neg (by rw [hiff _ (by omega)]; omega), UInt8.toNat_ofNat', Nat.mod_eq_of_lt (by omega),
        hsmall, Nat.add_assoc]

theorem receive_stored {s : Dp8390} {frame : List UInt8} {c : Nat}
    (h : Ring s.regs first pages boundary) (hcurr : s.regs.curr.toNat = first + c % pages)
    (hb : boundary ≤ c) (ha : s.Admits frame)
    (hfits : 256 * c + 4 + min frame.length 0xffff < 256 * (boundary + pages)) :
    SameSetup s (s.receive frame) ∧
      (s.receive frame).regs.curr.toNat = first + (c + pagesOf (padded frame).length) % pages ∧
      ∃ rsr, Wrote first pages s.packetRam (s.receive frame).packetRam (256 * c)
        (Dp8390.header rsr (s.receive frame).regs.curr (padded frame).length ++ padded frame) := by
  obtain ⟨rsr, he⟩ := receive_eq h hcurr ha
  have hlen : (frame.take 0xffff).length = min frame.length 0xffff := by
    rw [List.length_take, Nat.min_comm]
  obtain ⟨ram, hst, hw⟩ := storeBytes_fits h (frame.take 0xffff) s.packetRam (256 * c + 4)
    (by omega) (by rw [hlen]; omega)
  rw [(he ram).2 _ hst]
  obtain ⟨n, hn⟩ : ∃ n, n = min frame.length 0xffff := ⟨_, rfl⟩
  have hpad : (padded frame).length = max n 60 := by rw [length_padded, hn]
  have hpages := h.nonempty
  -- the offset after the padding
  have hoff : (addr first pages (256 * c + 4 + n) + (60 - n)) % 0x10000 =
      addr first pages (256 * c + 4 + (padded frame).length) := by
    have hbound := addr_lt h.nonempty h.fits (256 * c + 4 + (padded frame).length)
    have hadd : addr first pages (256 * c + 4 + (padded frame).length) =
        addr first pages (256 * c + 4 + n) + (60 - n) := by
      by_cases hs : n < 60
      · have hpos : 256 * c + 4 + (padded frame).length = (256 * c + 4 + n) + (60 - n) := by omega
        rw [hpos]
        exact addr_add (by omega)
      · have hpos : 256 * c + 4 + (padded frame).length = 256 * c + 4 + n := by omega
        have hz : 60 - n = 0 := by omega
        rw [hpos, hz]
        exact (Nat.add_zero _).symm
    rw [← hadd]
    exact Nat.mod_eq_of_lt (by omega)
  have hcurr' := nextPage_eq h (256 * c + 4 + (padded frame).length)
  rw [show (256 * c + 4 + (padded frame).length + 255) / 256 = c + pagesOf (padded frame).length by
    unfold pagesOf; omega] at hcurr'
  rw [hlen, ← hn]
  obtain ⟨next, hnext⟩ : ∃ next, next = Dp8390.nextPage s.regs
    (addr first pages (256 * c + 4 + (padded frame).length)) := ⟨_, rfl⟩
  rw [← hnext] at hcurr'
  have hfinish : ∀ t : Dp8390, t.regs = { s.regs with rsr := rsr } → t.packetRam = ram →
      (t.finishFrame (addr first pages (256 * c)) n (addr first pages (256 * c + 4 + n))).regs.curr =
          next ∧
        SameSetup s
          (t.finishFrame (addr first pages (256 * c)) n (addr first pages (256 * c + 4 + n))) ∧
        (t.finishFrame (addr first pages (256 * c)) n (addr first pages (256 * c + 4 + n))).packetRam =
          (ram.writeAll (List.replicate (60 - n) 0) (addr first pages (256 * c + 4 + n))).writeAll
            (Dp8390.header (rsr ||| 0x01) next (padded frame).length)
            (addr first pages (256 * c)) := by
    rintro t ht hr
    have hnp : Dp8390.nextPage t.regs (addr first pages (256 * c + 4 + (padded frame).length)) =
        next := by rw [ht, hnext]; rfl
    unfold Dp8390.finishFrame
    simp only [hoff, hnp, hr, ← hpad]
    refine ⟨rfl, ⟨?_, ?_, ?_, ?_⟩, ?_⟩ <;> simp [Dp8390.checkIrq, ht]
  obtain ⟨h1, h2, h3⟩ := hfinish { s with packetRam := ram, regs.rsr := rsr } rfl rfl
  refine ⟨h2, by rw [h1]; exact hcurr', rsr ||| 0x01, ?_⟩
  rw [h1, h3]
  have hzeros := writeAll_wrote h.nonempty h.fits (List.replicate (60 - n) 0) ram (256 * c + 4 + n)
    (by rw [List.length_replicate]; omega)
  have hhead := writeAll_wrote h.nonempty h.fits
    (Dp8390.header (rsr ||| 0x01) next (padded frame).length)
    (ram.writeAll (List.replicate (60 - n) 0) (addr first pages (256 * c + 4 + n))) (256 * c)
    (by show 256 * c % 256 + 4 ≤ 256; omega)
  have hdata : Wrote first pages s.packetRam
      (ram.writeAll (List.replicate (60 - n) 0) (addr first pages (256 * c + 4 + n)))
      (256 * c + 4) (padded frame) := by
    have hp : padded frame = frame.take 0xffff ++ List.replicate (60 - n) 0 := by
      rw [padded, hlen, ← hn]
    rw [hp]
    refine hw.append c ?_ (by omega) ?_
    · rw [hlen, ← hn]; exact hzeros
    · rw [hlen, List.length_replicate]
      omega
  exact hdata.prepend c hhead (by omega) (by show 256 * c + 4 + _ ≤ _; omega)

/-- A frame that takes the last free page, without ending it, makes the full ring look
    empty. -/
theorem curr_eq_bnry_of_fills {s : Dp8390} {frame : List UInt8} {c : Nat}
    (h : Ring s.regs first pages boundary) (hcurr : s.regs.curr.toNat = first + c % pages)
    (hb : boundary ≤ c) (ha : s.Admits frame)
    (hfits : 256 * c + 4 + min frame.length 0xffff < 256 * (boundary + pages))
    (hfills : c + pagesOf (padded frame).length = boundary + pages) :
    (s.receive frame).regs.curr = s.regs.bnry := by
  obtain ⟨-, hc, -⟩ := receive_stored h hcurr hb ha hfits
  rw [← UInt8.toNat_inj, hc, hfills, Nat.add_mod_right, h.bnry]

end

/-! ## The frames in the ring -/

section
variable {first pages : Nat}

/-- `bytes` stand from the position `n` on. -/
def Holds (first pages : Nat) (ram : PacketRam) (n : Nat) (bytes : List UInt8) : Prop :=
  ∀ i (h : i < bytes.length), ram (addr first pages (n + i)) = bytes[i]

/-- `frames` stand one behind the other from the page `a` to the page `c`, each behind a header
    that links it to the next one. -/
def Chain (first pages : Nat) (ram : PacketRam) : Nat → List (List UInt8) → Nat → Prop
  | a, [], c => a = c
  | a, frame :: frames, c =>
    (frame.length < 0x10000 - 4 ∧ ∃ rsr next : UInt8,
      next.toNat = first + (a + pagesOf frame.length) % pages ∧
        Holds first pages ram (256 * a) (Dp8390.header rsr next frame.length ++ frame)) ∧
      Chain first pages ram (a + pagesOf frame.length) frames c

variable {ram ram' : PacketRam} {a c : Nat} {frames : List (List UInt8)}

theorem pagesOf_pos (length : Nat) : 0 < pagesOf length := by unfold pagesOf; omega

theorem Chain.le (h : Chain first pages ram a frames c) : a + frames.length ≤ c := by
  induction frames generalizing a with
  | nil => exact Nat.le_of_eq h
  | cons frame frames ih =>
    have h1 := ih h.2
    have h2 := pagesOf_pos frame.length
    rw [List.length_cons]
    omega

/-- The frames are not touched by what is written elsewhere. -/
theorem Chain.frame (h : Chain first pages ram a frames c)
    (hsame : ∀ n, 256 * a ≤ n → n < 256 * c →
      ram' (addr first pages n) = ram (addr first pages n)) :
    Chain first pages ram' a frames c := by
  induction frames generalizing a with
  | nil => exact h
  | cons frame frames ih =>
    obtain ⟨⟨hlen, rsr, next, hnext, hholds⟩, htail⟩ := h
    have hle := htail.le
    refine ⟨⟨hlen, rsr, next, hnext, fun i hi => ?_⟩, ih htail fun n h1 h2 => hsame n (by omega) h2⟩
    have hi' : i < 4 + frame.length := by rwa [List.length_append] at hi
    have hp : 4 + frame.length ≤ 256 * pagesOf frame.length := by unfold pagesOf; omega
    rw [hsame _ (by omega) (by omega)]
    exact hholds i hi

/-- One more frame at the end. -/
theorem Chain.snoc (h : Chain first pages ram a frames c) {frame : List UInt8}
    (hframe : Chain first pages ram c [frame] (c + pagesOf frame.length)) :
    Chain first pages ram a (frames ++ [frame]) (c + pagesOf frame.length) := by
  induction frames generalizing a with
  | nil => rw [show a = c from h]; exact hframe
  | cons f frames ih => exact ⟨h.1, ih h.2⟩

end

end CuteMac.Network
