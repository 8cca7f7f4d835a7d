/-
  Patches of a ROM image.

  * `RomPatchEdit`, `RomPatchDefinition`: the bytes that a patch expects and puts in
    their place;
  * `select`, `verify`, `applyDefinitions`: all enabled patches are found and compared
    with the image before the first byte is replaced;
  * `Applicable`: the image is the one that all enabled patches are for;
  * `Patched`, `AllOrNothing`: every selected edit, and nothing else, was made, or nothing;
  * `allOrNothing_iff`: exactly where selected edits that meet put the same bytes there;
  * `apply_allOrNothing`: the patches of the machines never meet.
-/
import CuteMac.Lib.Fallible
import CuteMac.Lib.Overwrites

namespace CuteMac.Rom

open Slice Overwrites WriteLog

/-! ## Definitions -/

structure RomPatchEdit where
  offset : UInt32 := 0
  expectedBytes : List UInt8 := []
  replacementBytes : List UInt8 := []
  deriving DecidableEq

structure RomPatchDefinition where
  id : String := ""
  description : String := ""
  machineId : String := ""
  requiredSha256 : List UInt8 := []
  edits : List RomPatchEdit := []
  deriving DecidableEq

structure RomPatchResult where
  success : Bool := false
  originalSha256 : List UInt8 := []
  appliedPatchIds : List String := []
  error : String := ""
  deriving DecidableEq

def allDefinitions : List RomPatchDefinition :=
  [{ id := "macplus.skip_ram_pattern_test"
     description := "Skip the destructive full-RAM pattern passes while preserving RAM sizing"
     machineId := "mac-plus"
     requiredSha256 :=
       [0xdd, 0x90, 0x8e, 0x2b, 0x65, 0x77, 0x2a, 0x6b, 0x1f, 0x0c, 0x85, 0x9c, 0x24, 0xe9, 0xa0,
        0xd3, 0xdc, 0xde, 0x17, 0xb1, 0xc6, 0xa2, 0x4f, 0x4a, 0xbd, 0x89, 0x55, 0x84, 0x6d, 0x78,
        0x95, 0xe7]
     edits :=
       [{ offset := 0x000000, expectedBytes := [0x4d, 0x1f, 0x81, 0x72]
          replacementBytes := [0x4d, 0x1f, 0x7a, 0x72] },
        { offset := 0x000e08, expectedBytes := [0x67, 0x22], replacementBytes := [0x60, 0x22] }] },
   { id := "maciicx.skip_ram_pattern_test"
     description := "Skip the destructive full-RAM pattern passes while preserving RAM sizing"
     machineId := "mac-iicx"
     requiredSha256 :=
       [0x79, 0xfa, 0xe4, 0x8e, 0x2d, 0x5c, 0xfd, 0xe6, 0x85, 0x20, 0xe4, 0x66, 0x16, 0x50, 0x39,
        0x63, 0xf8, 0xc1, 0x64, 0x30, 0x90, 0x3f, 0x41, 0x05, 0x14, 0xb6, 0x2c, 0x13, 0x79, 0xaf,
        0x20, 0xcb]
     edits :=
       [{ offset := 0x00000000, expectedBytes := [0x97, 0x22, 0x11, 0x36]
          replacementBytes := [0x97, 0x22, 0x3b, 0xc4] },
        { offset := 0x00003714, expectedBytes := [0x24, 0x48], replacementBytes := [0x4e, 0xd6] }] }]

def definitionsForMachine (machineId : String) : List RomPatchDefinition :=
  allDefinitions.filter fun definition => definition.machineId = machineId

/-! ## Applying -/

/-- `QByteArray::toHex`. -/
def toHex (bytes : List UInt8) : String :=
  String.ofList (bytes.flatMap fun b => [(b.toNat / 16).digitChar, (b.toNat % 16).digitChar])

/-- `QByteArray::replace` of as many bytes as are put there; the range lies inside. -/
def RomPatchEdit.replace (edit : RomPatchEdit) (bytes : List UInt8) : List UInt8 :=
  overwrite bytes edit.offset.toNat edit.replacementBytes

/-- The comparison of one edit with the image; sizes and the end of the range are computed
    in 32 bits. -/
def RomPatchEdit.Verified (edit : RomPatchEdit) (romBytes : List UInt8) : Prop :=
  edit.expectedBytes.length = edit.replacementBytes.length ∧
    ¬ (edit.offset + UInt32.ofNat edit.expectedBytes.length > UInt32.ofNat romBytes.length) ∧
    mid romBytes edit.offset.toNat edit.expectedBytes.length = edit.expectedBytes
  deriving Decidable

/-- The first definition with the id. -/
def findDefinition (definitions : List RomPatchDefinition) (patchId : String) :
    Option RomPatchDefinition :=
  definitions.find? fun definition => definition.id = patchId

/-- The definition that an id names, if it is for this image. -/
def selectOne (originalSha256 : List UInt8) (machineId : String)
    (definitions : List RomPatchDefinition) (patchId : String) :
    Except String RomPatchDefinition :=
  match findDefinition definitions patchId with
  | none => .error ("unknown ROM patch '" ++ patchId ++ "' for machine '" ++ machineId ++ "'")
  | some it =>
    if it.requiredSha256 ≠ originalSha256 then
      .error ("ROM patch '" ++ patchId ++ "' does not support ROM SHA-256 " ++ toHex originalSha256)
    else .ok it

/-- The first loop: the definitions of the enabled ids, in their order. -/
def select (originalSha256 : List UInt8) (machineId : String)
    (definitions : List RomPatchDefinition) (enabledPatchIds : List String) :
    Except String (List RomPatchDefinition) :=
  enabledPatchIds.mapM (selectOne originalSha256 machineId definitions)

/-- The second loop: every edit is compared with the image as it was. -/
def verify (romBytes : List UInt8) (selected : List RomPatchDefinition) : Except String Unit :=
  selected.forM fun definition => definition.edits.forM fun edit =>
    if edit.Verified romBytes then .ok ()
    else .error ("ROM patch '" ++ definition.id ++ "' failed byte verification at offset 0x" ++
      String.ofList (Nat.toDigits 16 edit.offset.toNat))

/-- The third loop. -/
def applyEdits (romBytes : List UInt8) (selected : List RomPatchDefinition) : List UInt8 :=
  selected.foldl (fun bytes definition =>
    definition.edits.foldl (fun bytes edit => edit.replace bytes) bytes) romBytes

section
variable (sha256 : List UInt8 → List UInt8)

/-- The image afterwards, and the result. -/
def applyDefinitions (romBytes : List UInt8) (machineId : String) (enabledPatchIds : List String)
    (definitions : List RomPatchDefinition) : List UInt8 × RomPatchResult :=
  let result : RomPatchResult := { originalSha256 := sha256 romBytes }
  if enabledPatchIds.isEmpty then (romBytes, { result with success := true })
  else
    match select result.originalSha256 machineId definitions enabledPatchIds with
    | .error error => (romBytes, { result with error })
    | .ok selected =>
      match verify romBytes selected with
      | .error error => (romBytes, { result with error })
      | .ok () => (applyEdits romBytes selected,
          { result with appliedPatchIds := selected.map (·.id), success := true })

def apply (romBytes : List UInt8) (machineId : String) (enabledPatchIds : List String) :
    List UInt8 × RomPatchResult :=
  applyDefinitions sha256 romBytes machineId enabledPatchIds (definitionsForMachine machineId)

end

/-! ## Which edits are made -/

/-- The edits of the definitions that the ids name, in the order of the ids. -/
def selectedEdits (definitions : List RomPatchDefinition) (enabledPatchIds : List String) :
    List RomPatchEdit :=
  enabledPatchIds.flatMap fun patchId =>
    ((findDefinition definitions patchId).map (·.edits)).getD []

/-- Every enabled id names a definition for an image with this hash, whose edits all find in
    the image what they expect. -/
def Applicable (originalSha256 romBytes : List UInt8) (definitions : List RomPatchDefinition)
    (enabledPatchIds : List String) : Prop :=
  ∀ patchId ∈ enabledPatchIds, ∃ it, findDefinition definitions patchId = some it ∧
    it.requiredSha256 = originalSha256 ∧ ∀ edit ∈ it.edits, edit.Verified romBytes

/-- Where an edit writes, and what. -/
def RomPatchEdit.write (edit : RomPatchEdit) : Nat × List UInt8 :=
  (edit.offset.toNat, edit.replacementBytes)

theorem applyEdits_eq (romBytes : List UInt8) (selected : List RomPatchDefinition) :
    applyEdits romBytes selected =
      overwrites romBytes ((selected.flatMap (·.edits)).map RomPatchEdit.write) := by
  rw [overwrites, List.foldl_map, List.foldl_flatMap]
  rfl

theorem RomPatchEdit.Verified.inside {edit : RomPatchEdit} {romBytes : List UInt8}
    (h : edit.Verified romBytes) :
    edit.offset.toNat + edit.expectedBytes.length ≤ romBytes.length := by
  obtain ⟨-, hend, hmid⟩ := h
  have hlen := congrArg List.length hmid
  rw [length_mid] at hlen
  rcases Nat.eq_zero_or_pos edit.expectedBytes.length with h0 | hpos
  · -- nothing is compared, so the offset alone was checked
    rw [h0, gt_iff_lt, UInt32.lt_iff_toNat_lt, UInt32.toNat_add, UInt32.toNat_ofNat',
      UInt32.toNat_ofNat'] at hend
    have := edit.offset.toNat_lt
    have := Nat.mod_le romBytes.length (2 ^ 32)
    omega
  · omega

section
variable {originalSha256 romBytes : List UInt8} {machineId : String}
  {definitions : List RomPatchDefinition} {enabledPatchIds : List String}
  {selected : List RomPatchDefinition}

theorem selectOne_eq_ok {patchId : String} {it : RomPatchDefinition} :
    selectOne originalSha256 machineId definitions patchId = .ok it ↔
      findDefinition definitions patchId = some it ∧ it.requiredSha256 = originalSha256 := by
  rw [selectOne]
  rcases findDefinition definitions patchId with _ | d
  · constructor
    · rintro ⟨⟩
    · rintro ⟨⟨⟩, -⟩
  · dsimp only
    by_cases hsha : d.requiredSha256 = originalSha256
    · rw [if_neg (not_not.2 hsha)]
      constructor
      · rintro ⟨⟩
        exact ⟨rfl, hsha⟩
      · rintro ⟨⟨⟩, -⟩
        rfl
    · rw [if_pos hsha]
      constructor
      · rintro ⟨⟩
      · rintro ⟨⟨⟩, h⟩
        exact absurd h hsha

theorem verify_eq_ok :
    verify romBytes selected = .ok () ↔
      ∀ definition ∈ selected, ∀ edit ∈ definition.edits, edit.Verified romBytes := by
  rw [verify, Fallible.forM_eq_ok]
  refine forall₂_congr fun definition _ => ?_
  rw [Fallible.forM_eq_ok]
  refine forall₂_congr fun edit _ => ?_
  split_ifs with h <;> simp [h]

theorem select_edits
    (h : select originalSha256 machineId definitions enabledPatchIds = .ok selected) :
    selected.flatMap (·.edits) = selectedEdits definitions enabledPatchIds := by
  have hall := Fallible.mapM_eq_ok.1 h
  clear h
  induction hall with
  | nil => rfl
  | cons hit _ ih =>
    rw [selectOne_eq_ok] at hit
    rw [List.flatMap_cons, ih, selectedEdits, selectedEdits, List.flatMap_cons, hit.1]
    rfl

theorem select_ids
    (h : select originalSha256 machineId definitions enabledPatchIds = .ok selected) :
    selected.map (·.id) = enabledPatchIds := by
  have hall := Fallible.mapM_eq_ok.1 h
  clear h
  induction hall with
  | nil => rfl
  | cons hit _ ih =>
    have hid := List.find?_some (selectOne_eq_ok.1 hit).1
    rw [List.map_cons, ih, of_decide_eq_true hid]

/-- The two loops of checks let through what is applicable. -/
theorem applicable_iff (machineId : String) :
    Applicable originalSha256 romBytes definitions enabledPatchIds ↔
      ∃ selected, select originalSha256 machineId definitions enabledPatchIds = .ok selected ∧
        verify romBytes selected = .ok () := by
  constructor
  · intro h
    induction enabledPatchIds with
    | nil => exact ⟨[], rfl, rfl⟩
    | cons patchId ids ih =>
      obtain ⟨⟨it, hfind, hsha, hedits⟩, hids⟩ := List.forall_mem_cons.1 h
      obtain ⟨selected, hsel, hver⟩ := ih hids
      refine ⟨it :: selected, ?_, ?_⟩
      · exact Fallible.mapM_eq_ok.2
          (.cons (selectOne_eq_ok.2 ⟨hfind, hsha⟩) (Fallible.mapM_eq_ok.1 hsel))
      · exact verify_eq_ok.2 (List.forall_mem_cons.2 ⟨hedits, verify_eq_ok.1 hver⟩)
  · rintro ⟨selected, hsel, hver⟩
    have hall := Fallible.mapM_eq_ok.1 hsel
    rw [verify_eq_ok] at hver
    clear hsel
    induction hall with
    | nil => exact fun _ h => absurd h List.not_mem_nil
    | cons hit _ ih =>
      obtain ⟨hedits, hrest⟩ := List.forall_mem_cons.1 hver
      obtain ⟨hfind, hsha⟩ := selectOne_eq_ok.1 hit
      exact List.forall_mem_cons.2 ⟨⟨_, hfind, hsha, hedits⟩, ih hrest⟩

end

/-! ## All or nothing -/

section
variable (sha256 : List UInt8 → List UInt8) {romBytes : List UInt8} {machineId : String}
  {definitions : List RomPatchDefinition} {enabledPatchIds : List String}

theorem applyDefinitions_of_applicable
    (h : Applicable (sha256 romBytes) romBytes definitions enabledPatchIds) :
    applyDefinitions sha256 romBytes machineId enabledPatchIds definitions =
      (overwrites romBytes ((selectedEdits definitions enabledPatchIds).map RomPatchEdit.write),
        { success := true, originalSha256 := sha256 romBytes
          appliedPatchIds := enabledPatchIds }) := by
  obtain ⟨selected, hsel, hver⟩ := (applicable_iff machineId).1 h
  rcases enabledPatchIds with _ | ⟨patchId, ids⟩
  · rfl
  · simp only [applyDefinitions, hsel, hver, List.isEmpty_cons, Bool.false_eq_true, if_false]
    rw [applyEdits_eq, select_edits hsel, select_ids hsel]

theorem applyDefinitions_of_not_applicable (machineId : String)
    (h : ¬ Applicable (sha256 romBytes) romBytes definitions enabledPatchIds) :
    ∃ error, applyDefinitions sha256 romBytes machineId enabledPatchIds definitions =
      (romBytes, { originalSha256 := sha256 romBytes, error }) := by
  rcases enabledPatchIds with _ | ⟨patchId, ids⟩
  · exact absurd (fun _ h => absurd h List.not_mem_nil) h
  · rw [applicable_iff machineId] at h
    rcases hsel : select (sha256 romBytes) machineId definitions (patchId :: ids)
      with error | selected
    · exact ⟨error, by
        simp only [applyDefinitions, hsel, List.isEmpty_cons, Bool.false_eq_true, if_false]⟩
    · rcases hver : verify romBytes selected with error | u
      · exact ⟨error, by
          simp only [applyDefinitions, hsel, hver, List.isEmpty_cons, Bool.false_eq_true,
            if_false]⟩
      · exact absurd ⟨selected, hsel, hver⟩ h

end

/-- Every edit, and nothing else, was made in an image that held what the edits expect. -/
structure Patched (romBytes patchedBytes : List UInt8) (edits : List RomPatchEdit) : Prop where
  size : patchedBytes.length = romBytes.length
  inside : ∀ e ∈ edits, e.offset.toNat + e.expectedBytes.length ≤ romBytes.length
  noWrap : ∀ e ∈ edits, e.offset.toNat + e.expectedBytes.length < UInt32.size
  expected : ∀ e ∈ edits,
    mid romBytes e.offset.toNat e.expectedBytes.length = e.expectedBytes
  replaced : ∀ e ∈ edits,
    mid patchedBytes e.offset.toNat e.replacementBytes.length = e.replacementBytes
  elsewhere : ∀ i, (∀ e ∈ edits, i < e.offset.toNat ∨
    e.offset.toNat + e.replacementBytes.length ≤ i) → patchedBytes[i]? = romBytes[i]?

section
variable (sha256 : List UInt8 → List UInt8) (romBytes : List UInt8) (machineId : String)
  (enabledPatchIds : List String) (definitions : List RomPatchDefinition)

/-- The patcher fails and leaves the image, or makes all selected edits. -/
def AllOrNothing : Prop :=
  ((applyDefinitions sha256 romBytes machineId enabledPatchIds definitions).2.success = false ∧
    (applyDefinitions sha256 romBytes machineId enabledPatchIds definitions).1 = romBytes) ∨
  ((applyDefinitions sha256 romBytes machineId enabledPatchIds definitions).2.success = true ∧
    Patched romBytes (applyDefinitions sha256 romBytes machineId enabledPatchIds definitions).1
      (selectedEdits definitions enabledPatchIds))

variable {sha256 romBytes machineId enabledPatchIds definitions}

theorem Applicable.verified (h : Applicable (sha256 romBytes) romBytes definitions enabledPatchIds)
    {e : RomPatchEdit} (he : e ∈ selectedEdits definitions enabledPatchIds) :
    e.Verified romBytes := by
  obtain ⟨patchId, hid, hmem⟩ := List.mem_flatMap.1 he
  obtain ⟨it, hfind, -, hedits⟩ := h patchId hid
  rw [hfind] at hmem
  exact hedits e hmem

theorem Applicable.inside (h : Applicable (sha256 romBytes) romBytes definitions enabledPatchIds) :
    ∀ w ∈ (selectedEdits definitions enabledPatchIds).map RomPatchEdit.write,
      Inside romBytes w := by
  intro w hw
  obtain ⟨e, he, rfl⟩ := List.mem_map.1 hw
  have hver := h.verified he
  have hend := hver.inside
  rw [hver.1] at hend
  exact hend

/-- All but the replacements is right where the patches are applied. -/
theorem patched_iff (h : Applicable (sha256 romBytes) romBytes definitions enabledPatchIds) :
    Patched romBytes
        (overwrites romBytes ((selectedEdits definitions enabledPatchIds).map RomPatchEdit.write))
        (selectedEdits definitions enabledPatchIds) ↔
      (∀ a ∈ selectedEdits definitions enabledPatchIds,
        ∀ b ∈ selectedEdits definitions enabledPatchIds, Agree a.write b.write) ∧
      ∀ e ∈ selectedEdits definitions enabledPatchIds,
        e.offset.toNat + e.expectedBytes.length < UInt32.size := by
  have hpresent := present_iff h.inside
  simp only [List.forall_mem_map] at hpresent
  rw [← hpresent]
  constructor
  · intro hp
    exact ⟨hp.replaced, hp.noWrap⟩
  · rintro ⟨hreplaced, hwrap⟩
    refine ⟨length_overwrites h.inside, ?_, hwrap, ?_, hreplaced, ?_⟩
    · exact fun e he => (h.verified he).inside
    · exact fun e he => (h.verified he).2.2
    · intro i hi
      rw [getElem?_overwrites h.inside, lastWritten_eq_none.2, Option.none_or]
      intro w hw
      obtain ⟨e, he, rfl⟩ := List.mem_map.1 hw
      rw [cellAt]
      rcases hi e he with hlt | hle
      · rw [if_neg (by simp only [RomPatchEdit.write]; omega)]
      · split_ifs
        · exact List.getElem?_eq_none (by simp only [RomPatchEdit.write]; omega)
        · rfl

theorem allOrNothing_of_not_applicable
    (h : ¬ Applicable (sha256 romBytes) romBytes definitions enabledPatchIds) :
    AllOrNothing sha256 romBytes machineId enabledPatchIds definitions := by
  obtain ⟨error, heq⟩ := applyDefinitions_of_not_applicable sha256 machineId h
  left
  rw [heq]
  exact ⟨rfl, rfl⟩

theorem allOrNothing_of_applicable
    (h : Applicable (sha256 romBytes) romBytes definitions enabledPatchIds) :
    AllOrNothing sha256 romBytes machineId enabledPatchIds definitions ↔
      Patched romBytes
        (overwrites romBytes ((selectedEdits definitions enabledPatchIds).map RomPatchEdit.write))
        (selectedEdits definitions enabledPatchIds) := by
  rw [AllOrNothing, applyDefinitions_of_applicable sha256 h]
  constructor
  · rintro (⟨⟨⟩, -⟩ | ⟨-, hp⟩)
    exact hp
  · intro hp
    exact Or.inr ⟨rfl, hp⟩

end

/-- Patching is all or nothing exactly where the selected edits that are made put the same
    bytes where they meet, and none of them ends beyond `2³²`, as it may in an image of more
    than 4 GiB. -/
theorem allOrNothing_iff (sha256 : List UInt8 → List UInt8) (romBytes : List UInt8)
    (machineId : String) (enabledPatchIds : List String) (definitions : List RomPatchDefinition) :
    AllOrNothing sha256 romBytes machineId enabledPatchIds definitions ↔
      (Applicable (sha256 romBytes) romBytes definitions enabledPatchIds →
        (∀ a ∈ selectedEdits definitions enabledPatchIds,
          ∀ b ∈ selectedEdits definitions enabledPatchIds, Agree a.write b.write) ∧
        ∀ e ∈ selectedEdits definitions enabledPatchIds,
          e.offset.toNat + e.expectedBytes.length < UInt32.size) := by
  by_cases h : Applicable (sha256 romBytes) romBytes definitions enabledPatchIds
  · rw [allOrNothing_of_applicable h, patched_iff h]
    exact ⟨fun hp _ => hp, fun hp => hp h⟩
  · exact ⟨fun _ happ => absurd happ h, fun _ => allOrNothing_of_not_applicable h⟩

/-- Two patches of one image, the second one byte behind the first. -/
def neighbours (requiredSha256 : List UInt8) : List RomPatchDefinition :=
  [{ id := "test.first", machineId := "test-machine", requiredSha256
     edits := [{ offset := 2, expectedBytes := [0x22, 0x33], replacementBytes := [0xaa, 0xbb] }] },
   { id := "test.second", machineId := "test-machine", requiredSha256
     edits := [{ offset := 3, expectedBytes := [0x33, 0x44], replacementBytes := [0xcc, 0xdd] }] }]

def neighboursRom : List UInt8 := [0x00, 0x11, 0x22, 0x33, 0x44, 0x55, 0x66, 0x77]

/-- Whatever the hash, both patches are applied, and the second takes back what the first
    wrote at offset 3. -/
theorem second_replaces_first : ¬ ∃ sha256 : List UInt8 → List UInt8,
    AllOrNothing sha256 neighboursRom "test-machine" ["test.first", "test.second"]
      (neighbours (sha256 neighboursRom)) := by
  rintro ⟨sha256, h⟩
  have happ : Applicable (sha256 neighboursRom) neighboursRom
      (neighbours (sha256 neighboursRom)) ["test.first", "test.second"] := by
    rintro patchId hid
    rcases List.mem_cons.1 hid with rfl | hid
    · exact ⟨_, rfl, rfl, List.forall_mem_singleton.2 (by decide)⟩
    · obtain rfl := List.mem_singleton.1 hid
      exact ⟨_, rfl, rfl, List.forall_mem_singleton.2 (by decide)⟩
  rw [allOrNothing_of_applicable happ] at h
  have hsel : selectedEdits (neighbours (sha256 neighboursRom)) ["test.first", "test.second"] =
      selectedEdits (neighbours []) ["test.first", "test.second"] := rfl
  rw [hsel] at h
  have hfirst := h.replaced { offset := 2, expectedBytes := [0x22, 0x33],
                              replacementBytes := [0xaa, 0xbb] } List.mem_cons_self
  exact absurd hfirst (by decide)

/-! ## The patches of the machines -/

theorem mem_of_mem_selectedEdits {definitions : List RomPatchDefinition} {ids : List String}
    {e : RomPatchEdit} (h : e ∈ selectedEdits definitions ids) :
    ∃ it ∈ definitions, e ∈ it.edits := by
  obtain ⟨patchId, -, he⟩ := List.mem_flatMap.1 h
  rcases hfind : findDefinition definitions patchId with _ | it
  · rw [hfind] at he
    exact absurd he List.not_mem_nil
  · rw [hfind] at he
    exact ⟨it, List.mem_of_find?_eq_some hfind, he⟩

/-- There is one patch for each machine. -/
theorem eq_of_machineId : ∀ d ∈ allDefinitions, ∀ d' ∈ allDefinitions,
    d.machineId = d'.machineId → d = d' := by decide

theorem edits_disjoint : ∀ d ∈ allDefinitions, ∀ a ∈ d.edits, ∀ b ∈ d.edits, a = b ∨
    a.offset.toNat + a.replacementBytes.length ≤ b.offset.toNat ∨
    b.offset.toNat + b.replacementBytes.length ≤ a.offset.toNat := by decide

theorem edits_noWrap : ∀ d ∈ allDefinitions, ∀ e ∈ d.edits,
    e.offset.toNat + e.expectedBytes.length < UInt32.size := by decide

/-- The patches of every machine are all or nothing: their edits never meet. -/
theorem apply_allOrNothing (sha256 : List UInt8 → List UInt8) (romBytes : List UInt8)
    (machineId : String) (enabledPatchIds : List String) :
    AllOrNothing sha256 romBytes machineId enabledPatchIds (definitionsForMachine machineId) := by
  have hmem : ∀ e ∈ selectedEdits (definitionsForMachine machineId) enabledPatchIds,
      ∃ it ∈ allDefinitions, it.machineId = machineId ∧ e ∈ it.edits := by
    intro e he
    obtain ⟨it, hit, hedit⟩ := mem_of_mem_selectedEdits he
    obtain ⟨hit, hid⟩ := List.mem_filter.1 hit
    exact ⟨it, hit, of_decide_eq_true hid, hedit⟩
  by_cases h : Applicable (sha256 romBytes) romBytes (definitionsForMachine machineId)
      enabledPatchIds
  · refine (allOrNothing_of_applicable h).2 ((patched_iff h).2 ⟨?_, ?_⟩)
    · intro a ha b hb
      obtain ⟨d, hd, hid, ha⟩ := hmem a ha
      obtain ⟨d', hd', hid', hb⟩ := hmem b hb
      obtain rfl := eq_of_machineId d hd d' hd' (hid.trans hid'.symm)
      rcases edits_disjoint d hd a ha b hb with rfl | hdisj
      · exact Agree.refl _
      · exact agree_of_disjoint hdisj
    · intro e he
      obtain ⟨d, hd, -, he⟩ := hmem e he
      exact edits_noWrap d hd e he
  · exact allOrNothing_of_not_applicable h

end CuteMac.Rom
