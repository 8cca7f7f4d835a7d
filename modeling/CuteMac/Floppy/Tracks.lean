/-
  Whole tracks, as they are written.

  * `putTag`: the tags of an image after a sector is written;
  * `WroteAll`: the sectors of a list were written, one after the other;
  * `WroteAll.flatMap`: a stream that writes its sectors one by one;
  * `WroteAll.self`, `WroteAll.of_source`: what such a stream makes of the image;
  * `failed_writeDiskBytes`: a failure stays until the write session ends.
-/
import CuteMac.Floppy.Session

namespace CuteMac.Floppy

open Slice Framing FloppyDiskImage

/-! ## Tags -/

/-- The tags of an image after a sector is written. -/
def putTag (tags : List (List UInt8)) (c : Commit) : List (List UInt8) :=
  if c.tags ≠ [] ∧ c.block < tags.length ∧ c.tags.length = tagBytesPerSector then
    tags.set c.block c.tags
  else tags

section
variable {tags : List (List UInt8)} {c : Commit} {cs : List Commit} {b : Nat}

theorem length_putTag : (putTag tags c).length = tags.length := by
  unfold putTag
  split
  · exact List.length_set
  · rfl

/-- A tag that is already there, or has no place on the image, changes nothing. -/
theorem putTag_self (h : tags = [] ∨ c.tags = [] ∨ c.tags = tags.getD c.block []) :
    putTag tags c = tags := by
  unfold putTag
  split
  · rename_i hc
    obtain ⟨hne, hlt, -⟩ := hc
    rcases h with rfl | h | h
    · rfl
    · exact absurd h hne
    · rw [h, List.getD_eq_getElem?_getD, List.getElem?_eq_getElem hlt, Option.getD_some,
        List.set_getElem_self]
  · rfl

theorem putTags_self (h : ∀ c ∈ cs, tags = [] ∨ c.tags = [] ∨ c.tags = tags.getD c.block []) :
    cs.foldl putTag tags = tags := by
  induction cs with
  | nil => rfl
  | cons c cs ih =>
    rw [List.foldl_cons, putTag_self (h c (List.mem_cons_self ..))]
    exact ih fun c' hc' => h c' (List.mem_cons_of_mem _ hc')

theorem getD_putTag (hc : c.tags.length = tagBytesPerSector) :
    (putTag tags c).getD b [] =
      if b = c.block ∧ b < tags.length then c.tags else tags.getD b [] := by
  have hne : c.tags ≠ [] := by
    intro h
    rw [h] at hc
    exact absurd hc (by decide)
  unfold putTag
  by_cases hlt : c.block < tags.length
  · rw [if_pos ⟨hne, hlt, hc⟩, List.getD_eq_getElem?_getD]
    by_cases hb : b = c.block
    · subst hb
      rw [List.getElem?_set_self hlt, if_pos ⟨rfl, hlt⟩, Option.getD_some]
    · rw [List.getElem?_set_ne (Ne.symm hb), if_neg (fun h => hb h.1), List.getD_eq_getElem?_getD]
  · rw [if_neg (fun h => hlt h.2.1), if_neg]
    rintro ⟨rfl, h⟩
    exact hlt h

/-- Where each block is written with its own new tag, the order does not matter. -/
theorem getD_putTags {new : Nat → List UInt8}
    (hnew : ∀ c ∈ cs, c.tags = new c.block ∧ c.tags.length = tagBytesPerSector) :
    (cs.foldl putTag tags).getD b [] =
      if b ∈ cs.map Commit.block ∧ b < tags.length then new b else tags.getD b [] := by
  induction cs generalizing tags with
  | nil => simp
  | cons c cs ih =>
    obtain ⟨hc, hlen⟩ := hnew c (List.mem_cons_self ..)
    rw [List.foldl_cons, ih fun c' hc' => hnew c' (List.mem_cons_of_mem _ hc'), getD_putTag hlen,
      length_putTag]
    by_cases hm : b ∈ cs.map Commit.block ∧ b < tags.length
    · rw [if_pos hm, if_pos ⟨by rw [List.map_cons]; exact List.mem_cons_of_mem _ hm.1, hm.2⟩]
    · rw [if_neg hm]
      by_cases hbc : b = c.block ∧ b < tags.length
      · rw [if_pos hbc, if_pos ⟨by rw [hbc.1]; exact List.mem_cons_self .., hbc.2⟩, hc, hbc.1]
      · rw [if_neg hbc, if_neg]
        rintro ⟨hmem, hlt⟩
        rcases List.mem_cons.1 hmem with rfl | hmem
        · exact hbc ⟨rfl, hlt⟩
        · exact hm ⟨hmem, hlt⟩

end

namespace FloppyDiskImage

/-! ## Sectors one by one -/

/-- The sectors of a list were written, one after the other. -/
structure WroteAll (d d' : FloppyDiskImage) (cs : List Commit) : Prop where
  same : SameDisk d d'
  data : d'.data = putBlocks bytesPerSector d.data (cs.map fun c => (c.block, c.data))
  tags : d'.tags = cs.foldl putTag d.tags
  commits : d'.commits = d.commits ++ cs
  failed : d'.writeFailed = (d.writeFailed || cs.any fun c => !c.saved)

section
variable {d d' d'' : FloppyDiskImage} {cs : List Commit} {c : Commit}

theorem WroteAll.of_kept (h : Kept d d') : WroteAll d d' [] := by
  have hs := h.sameDisk
  unfold Kept at h
  refine ⟨hs, ?_, ?_, ?_, ?_⟩
  · rw [h]; rfl
  · rw [h]; rfl
  · rw [h]; exact (List.append_nil _).symm
  · rw [h]; exact (Bool.or_false _).symm

theorem WroteAll.snoc (h : WroteAll d d' cs) (hc : Wrote d' d'' c) : WroteAll d d'' (cs ++ [c]) := by
  refine ⟨h.same.trans hc.same, ?_, ?_, ?_, ?_⟩
  · rw [hc.data, h.data, List.map_append, putBlocks, putBlocks, List.foldl_append]
    rfl
  · rw [List.foldl_append, ← h.tags]
    exact hc.tags
  · rw [hc.commits, h.commits, List.append_assoc]
  · rw [hc.failed, h.failed, List.any_append, Bool.or_assoc]
    simp

theorem WroteAll.kept (h : WroteAll d d' cs) (hk : Kept d' d'') : WroteAll d d'' cs := by
  have hs := h.same.trans hk.sameDisk
  unfold Kept at hk
  refine ⟨hs, ?_, ?_, ?_, ?_⟩
  · rw [hk]; exact h.data
  · rw [hk]; exact h.tags
  · rw [hk]; exact h.commits
  · rw [hk]; exact h.failed

/-- A stream that writes its sectors one by one; `I` holds between them. -/
theorem WroteAll.flatMap {I : FloppyDiskImage → Prop} {piece : Nat → List DiskByte}
    {commit : Nat → Commit} {ks : List Nat}
    (hstep : ∀ x, I x → SameDisk d x → ∀ k ∈ ks,
      I (x.writeDiskBytes (piece k)) ∧ Wrote x (x.writeDiskBytes (piece k)) (commit k))
    (h : WroteAll d d' cs) (hI : I d') :
    I (d'.writeDiskBytes (ks.flatMap piece)) ∧
      WroteAll d (d'.writeDiskBytes (ks.flatMap piece)) (cs ++ ks.map commit) := by
  induction ks generalizing d' cs with
  | nil =>
    rw [List.map_nil, List.append_nil]
    exact ⟨hI, h⟩
  | cons k ks ih =>
    obtain ⟨hI', hw⟩ := hstep d' hI h.same k (List.mem_cons_self ..)
    rw [List.flatMap_cons, writeDiskBytes_append, List.map_cons, List.append_cons]
    exact ih (fun x hx hs k' hk' => hstep x hx hs k' (List.mem_cons_of_mem _ hk')) (h.snoc hw) hI'

/-! ## Contents -/

/-- The commits lie on the disk. -/
theorem WroteAll.writable (hlen : ∀ c ∈ cs, c.data.length = bytesPerSector)
    (hlt : ∀ c ∈ cs, c.block < d.data.length / bytesPerSector) :
    Writable bytesPerSector d.data (cs.map fun c => (c.block, c.data)) := by
  intro p hp
  obtain ⟨c, hc, rfl⟩ := List.mem_map.1 hp
  exact ⟨hasBlock_of_lt (hlt c hc), hlen c hc⟩

/-- Sectors that are written back change nothing. -/
theorem WroteAll.self (h : WroteAll d d' cs)
    (hlt : ∀ c ∈ cs, c.block < d.data.length / bytesPerSector)
    (hdata : ∀ c ∈ cs, c.data = block bytesPerSector d.data c.block) : d'.data = d.data := by
  have hlen : ∀ c ∈ cs, c.data.length = bytesPerSector := by
    intro c hc
    rw [hdata c hc]
    exact length_block (hasBlock_of_lt (hlt c hc))
  rw [h.data]
  refine putBlocks_self (WroteAll.writable hlen hlt) fun p hp => ?_
  obtain ⟨c, hc, rfl⟩ := List.mem_map.1 hp
  exact hdata c hc

/-- Sectors that come from other contents: these blocks are the other ones, the rest stays. -/
theorem WroteAll.of_source (h : WroteAll d d' cs) {src : List UInt8}
    (hlen : src.length = d.data.length)
    (hlt : ∀ c ∈ cs, c.block < d.data.length / bytesPerSector)
    (hdata : ∀ c ∈ cs, c.data = block bytesPerSector src c.block) (b : Nat) :
    block bytesPerSector d'.data b =
      if b ∈ cs.map Commit.block then block bytesPerSector src b
      else block bytesPerSector d.data b := by
  have hsize : ∀ c ∈ cs, c.data.length = bytesPerSector := by
    intro c hc
    have hb : HasBlock bytesPerSector src c.block := by
      have := hasBlock_of_lt (hlt c hc)
      unfold HasBlock at this ⊢
      rw [hlen]
      exact this
    rw [hdata c hc]
    exact length_block hb
  have hmap : (cs.map fun c => (c.block, c.data)).map Prod.fst = cs.map Commit.block := by
    rw [List.map_map]
    rfl
  have hput : ∀ p ∈ cs.map fun c => (c.block, c.data), p.2 = block bytesPerSector src p.1 := by
    intro p hp
    obtain ⟨c, hc, rfl⟩ := List.mem_map.1 hp
    exact hdata c hc
  rw [h.data, block_putBlocks (WroteAll.writable hsize hlt) hput, hmap]

end

/-! ## Failures -/

section
variable {d : FloppyDiskImage}

theorem failed_commitSector (h : d.writeFailed = true) (k : Int) (data tags : List UInt8) :
    (d.commitSector k data tags).1.writeFailed = true := by
  by_cases hk : data.length = bytesPerSector ∧ 0 ≤ d.sectorBlock k ∧
      d.sectorBlock k < (d.data.length / bytesPerSector : Nat)
  · obtain ⟨hdata, h0, hlt⟩ := hk
    obtain ⟨blk, hblk⟩ := Int.eq_ofNat_of_zero_le h0
    rw [commitSector_eq hdata hblk (by omega) tags]
    exact Bool.or_eq_true_iff.2 (Or.inl h)
  · rw [commitSector_of_not hk]
    exact h

theorem failed_act (h : d.writeFailed = true) (highDensity : Bool) (r : List UInt8) :
    (act highDensity r d).writeFailed = true := by
  cases highDensity with
  | false =>
    simp only [act, gcrRecord]
    split
    · split
      · exact failed_commitSector h ..
      · rfl
    · rfl
  | true =>
    simp only [act]
    split
    · simp only [mfmIdField]
      split
      · exact h
      · split <;> exact h
    · simp only [mfmDataField]
      split
      · exact failed_commitSector h ..
      · split <;> rfl

theorem failed_writeDiskByte (h : d.writeFailed = true) (value : UInt8) (mark : Bool) :
    (d.writeDiskByte value mark).1.writeFailed = true := by
  by_cases hr : d.Ready
  · have hacts : ∀ (rs : List (List UInt8)) (x : FloppyDiskImage), x.writeFailed = true →
        (acts d.highDensity x rs).writeFailed = true := by
      intro rs
      induction rs with
      | nil => exact fun x hx => hx
      | cons r rs ih => exact fun x hx => ih _ (failed_act hx _ r)
    rw [writeDiskByte_fst hr]
    refine hacts _ _ ?_
    rw [takeByte_eq]
    exact h
  · have hn : (!d.writable || !d.inserted || !d.motorOn) = true := by
      simpa [Ready, or_assoc, imp_iff_not_or] using hr
    unfold writeDiskByte
    rw [if_pos hn]

/-- A failure stays until the write session ends. -/
theorem failed_writeDiskBytes (h : d.writeFailed = true) (s : List DiskByte) :
    (d.writeDiskBytes s).writeFailed = true :=
  Machine.run_inv (I := fun x : FloppyDiskImage => x.writeFailed = true)
    (fun _ b hx => failed_writeDiskByte hx b.value b.mark) h s

/-- A byte that completes a bad record fails the stream it starts. -/
theorem failed_of_pending {pending t : List DiskByte} {b : DiskByte}
    (h : (d.writeDiskBytes (pending ++ [b])).writeFailed = true) :
    ((d.writeDiskBytes pending).writeDiskBytes (b :: t)).writeFailed = true := by
  rw [← writeDiskBytes_append, List.append_cons, writeDiskBytes_append]
  exact failed_writeDiskBytes h t

end

end FloppyDiskImage

end CuteMac.Floppy
