import MindOne.Engine.GgufFormat
import Mathlib.Data.Nat.Bitwise

/-!
# Layouts of GGUF files

A file that is accepted is a header, metadata entries, tensor infos and a data area, all of
them inside the file. The tensors are aligned, lie in the data area and do not overlap.
-/

namespace MindOne.Engine

open CheckedArithmetic MindOne.Stream Spans ByteReader

/-- The bytes before the tensor infos. -/
def encodeHead (version tensorCount : Nat) (entries : List GgufEntry) : List UInt8 :=
  ggufMagic ++ (leBytes 4 version ++ (leBytes 8 tensorCount ++ (leBytes 8 entries.length ++
    entries.flatMap GgufEntry.encode)))

/-- What the validator takes from the entries. -/
def headOf (version tensorCount : Nat) (entries : List GgufEntry) : Option GgufHead :=
  if (1 ≤ version ∧ version ≤ 3) ∧ (0 < tensorCount ∧ tensorCount ≤ maxGgufCount) ∧
      entries.length ≤ maxGgufCount then
    (entries.foldlM GgufMetadata.add .initial).bind fun metadata =>
      metadata.split.toOption.map fun split => ⟨tensorCount, metadata.alignment, split⟩
  else none

section Head

theorem reads_orThrow {α : Type} {skips : Prop} (result : Except ValidationError α) :
    Reads skips (orThrow result) fun a bytes => bytes = [] ∧ result = .ok a := by
  cases result with
  | ok a => exact reads_pure a ⟨rfl, rfl⟩
  | error e => exact reads_throw e

theorem yields_orThrow {α : Type} (result : Except ValidationError α) :
    Yields (orThrow result) [] result.toOption := by
  cases result with
  | ok a => exact yields_pure a
  | error e => exact yields_throw e []

theorem reads_readGgufHead : Reads True readGgufHead fun head bytes =>
    ∃ version tensorCount entries, (∀ entry ∈ entries, GgufEntry.WellFormed entry) ∧
      bytes = encodeHead version tensorCount entries ∧
      headOf version tensorCount entries = some head := by
  refine ((reads_readExact _ 4).bind fun magic => (reads_refuseIf _ _).bind fun _ =>
    reads_readU32.bind fun version => (reads_refuseIf _ _).bind fun _ =>
    reads_readU64.bind fun tensorCount => reads_readU64.bind fun metadataCount =>
    (reads_refuseIf _ _).bind fun _ => (reads_refuseIf _ _).bind fun _ =>
    (Reads.iterate reads_readMetadataEntry metadataCount .initial).bind fun metadata =>
    (reads_orThrow metadata.split).bind fun split => reads_pure _
      (P := fun head bytes => head = ⟨tensorCount, metadata.alignment, split⟩ ∧ bytes = [])
      ⟨rfl, rfl⟩).mono ?_
  rintro _ _ ⟨magic, _, _, rfl, ⟨rfl, _⟩, _, _, _, rfl, ⟨rfl, hmagic⟩, version, _, _, rfl,
    ⟨_, rfl⟩, _, _, _, rfl, ⟨rfl, hversion⟩, tensorCount, _, _, rfl, ⟨_, rfl⟩, metadataCount, _, _,
    rfl, ⟨_, rfl⟩, _, _, _, rfl, ⟨rfl, htensors⟩, _, _, _, rfl, ⟨rfl, hentries⟩, metadata, _, _, rfl,
    ⟨entries, rfl, hwell, rfl, hfold⟩, split, _, _, rfl, ⟨rfl, hsplit⟩, rfl, rfl⟩
  refine ⟨version, tensorCount, entries, hwell, by simp [encodeHead, not_not.mp hmagic], ?_⟩
  rw [headOf, if_pos (by omega), hfold, Option.bind_some, hsplit]
  rfl

theorem yields_readGgufHead {version tensorCount : Nat} {entries : List GgufEntry}
    (hversion : version < 256 ^ 4) (htensors : tensorCount < 256 ^ 8)
    (hentries : entries.length < 256 ^ 8) (hwell : ∀ entry ∈ entries, entry.WellFormed) :
    Yields readGgufHead (encodeHead version tensorCount entries)
      (headOf version tensorCount entries) := by
  have hmagic := yields_readExact (.invalidGguf "failed to fill whole buffer" : ValidationError)
    ggufMagic
  rw [encodeHead, readGgufHead]
  refine hmagic.bind ((yields_refuseIf_of_not _ (by simp)).bind_of_nil ?_)
  refine (yields_readU32 hversion).bind ?_
  by_cases hv : 1 ≤ version ∧ version ≤ 3
  · refine (yields_refuseIf_of_not _ (not_not.mpr hv)).bind_of_nil ?_
    refine (yields_readU64 htensors).bind ((yields_readU64 hentries).bind ?_)
    by_cases ht : 0 < tensorCount ∧ tensorCount ≤ maxGgufCount
    · refine (yields_refuseIf_of_not _ (by omega)).bind_of_nil ?_
      by_cases he : entries.length ≤ maxGgufCount
      · refine (yields_refuseIf_of_not _ (by omega)).bind_of_nil ?_
        have hloop := Yields.iterate (fun entry hmem metadata =>
          yields_readMetadataEntry metadata (hwell entry hmem)) .initial
        rw [headOf, if_pos ⟨hv, ht, he⟩]
        cases hfold : entries.foldlM GgufMetadata.add .initial with
        | none =>
            rw [hfold] at hloop
            rw [← List.append_nil (entries.flatMap GgufEntry.encode), Option.bind_none]
            exact hloop.bind_none _ _
        | some metadata =>
            rw [hfold] at hloop
            refine hloop.bind_last ?_
            rw [Option.bind_some]
            have hsplit := yields_orThrow metadata.split
            cases hvalue : metadata.split with
            | error e =>
                rw [hvalue] at hsplit
                exact hsplit.bind_none _ []
            | ok split =>
                rw [hvalue] at hsplit
                exact hsplit.bind_of_nil (yields_pure _)
      · rw [headOf, if_neg (by omega)]
        exact yields_refuseIf_of _ (by omega) _ _
    · rw [headOf, if_neg (by omega)]
      exact yields_refuseIf_of _ (by omega) _ _
  · rw [headOf, if_neg (by omega)]
    exact yields_refuseIf_of _ hv _ _

end Head

/-- The tensor infos that a tail starts with are accepted together with the data area. -/
def TailFits (fileSize start alignment count : Nat) (tail : List UInt8) : Prop :=
  ∃ (infos : List TensorInfo) (rest : List UInt8), tail = infos.flatMap TensorInfo.encode ++ rest ∧
    infos.length = count ∧ (∀ info ∈ infos, info.Sound) ∧
    checkDataArea fileSize (start + (infos.flatMap TensorInfo.encode).length) alignment
      (infos.map TensorInfo.tensor) = .ok ()

/-- What the validator says about a file. -/
def verdict (file : List UInt8) : Option (Nat × Option GgufSplitInfo) :=
  match runGguf file with
  | .ok result _ => some result
  | .error _ _ => none

section Runs

theorem verdict_eq_some {file : List UInt8} {result : Nat × Option GgufSplitInfo} :
    verdict file = some result ↔ ∃ after, runGguf file = .ok result after := by
  rw [verdict]
  cases runGguf file with
  | ok r after => simp
  | error e after => simp

/-- The second half succeeds exactly where the tail fits. -/
theorem readGgufTensors_ok {fileSize start reads : Nat} {head : GgufHead} {tail : List UInt8}
    {result : Nat × Option GgufSplitInfo} :
    (∃ after, readGgufTensors fileSize head ⟨tail, start, reads⟩ = .ok result after) ↔
      TailFits fileSize start head.alignment head.tensorCount tail ∧
        result = (head.tensorCount, head.split) := by
  constructor
  · rintro ⟨after, hrun⟩
    obtain ⟨tensors, middle, htensors, hrun⟩ := run_bind_eq_ok.mp hrun
    obtain ⟨infoEnd, middle', hposition, hrun⟩ := run_bind_eq_ok.mp hrun
    cases hposition
    obtain ⟨_, after', hcheck, hrun⟩ := run_bind_eq_ok.mp hrun
    cases hrun
    have hcollect : Reads False (collect readTensor head.tensorCount) fun list bytes =>
        ∃ items : List TensorInfo, items.length = head.tensorCount ∧
          (∀ info ∈ items, info.Sound) ∧ bytes = items.flatMap TensorInfo.encode ∧
          list = items.map TensorInfo.tensor := reads_readTensor.collect _
    obtain ⟨_, ⟨hnever, _⟩ | ⟨_, hrest, hplace, infos, hcount, hsound, rfl, rfl⟩⟩ :=
      hcollect.ok _ _ _ htensors
    · exact hnever.elim
    · refine ⟨⟨infos, middle.rest, hrest, hcount, hsound, ?_⟩, rfl⟩
      rw [← hplace]
      obtain ⟨_, ⟨hnever, _⟩ | ⟨_, _, _, _, hok⟩⟩ :=
        (@reads_orThrow _ False _).ok _ _ _ hcheck
      · exact hnever.elim
      · exact hok
  · rintro ⟨⟨infos, rest, rfl, hcount, hsound, hcheck⟩, rfl⟩
    have hcollect := Yields.collect fun info hmem => yields_readTensor (hsound info hmem)
    obtain ⟨reads', htensors⟩ := hcollect rest start reads
    rw [hcount] at htensors
    have hposition : orThrow (checkDataArea fileSize
        (start + (infos.flatMap TensorInfo.encode).length) head.alignment
          (infos.map TensorInfo.tensor))
        ⟨rest, start + (infos.flatMap TensorInfo.encode).length, reads'⟩ =
          .ok () ⟨rest, start + (infos.flatMap TensorInfo.encode).length, reads'⟩ := by
      rw [hcheck]
      rfl
    refine ⟨⟨rest, start + (infos.flatMap TensorInfo.encode).length, reads'⟩, run_bind_eq_ok.mpr
      ⟨_, _, htensors, run_bind_eq_ok.mpr ⟨_, _, rfl, run_bind_eq_ok.mpr ⟨(), _, hposition, rfl⟩⟩⟩⟩

/-- The verdict on a file whose metadata entries are known. -/
theorem verdict_encodeHead {version tensorCount : Nat} {entries : List GgufEntry}
    (hversion : version < 256 ^ 4) (htensors : tensorCount < 256 ^ 8)
    (hentries : entries.length < 256 ^ 8) (hwell : ∀ entry ∈ entries, entry.WellFormed)
    (tail : List UInt8) {result : Nat × Option GgufSplitInfo} :
    verdict (encodeHead version tensorCount entries ++ tail) = some result ↔
      ∃ head, headOf version tensorCount entries = some head ∧
        TailFits (encodeHead version tensorCount entries ++ tail).length
          (encodeHead version tensorCount entries).length head.alignment head.tensorCount tail ∧
        result = (head.tensorCount, head.split) := by
  have hhead := yields_readGgufHead hversion htensors hentries hwell
  rw [verdict_eq_some]
  simp only [runGguf, validateGguf, run_bind_eq_ok]
  cases hvalue : headOf version tensorCount entries with
  | none =>
      rw [hvalue] at hhead
      obtain ⟨e, after, hrun⟩ := hhead tail 0 0
      simp [hrun]
  | some head =>
      rw [hvalue] at hhead
      obtain ⟨reads, hrun⟩ := hhead tail 0 0
      rw [Nat.zero_add] at hrun
      simp only [hrun, EStateM.Result.ok.injEq, Option.some.injEq, exists_eq_left']
      rw [← @readGgufTensors_ok _ _ reads]
      constructor
      · rintro ⟨after, head', middle, ⟨rfl, rfl⟩, hrest⟩
        exact ⟨after, hrest⟩
      · rintro ⟨after, hrest⟩
        exact ⟨after, head, _, ⟨rfl, rfl⟩, hrest⟩

end Runs

section DataArea

/-- Clearing the low bits rounds down. -/
theorem land_mask {sum k : Nat} (hk : k ≤ 64) (hsum : sum < 2 ^ 64) :
    sum &&& (2 ^ 64 - 1 - (2 ^ k - 1)) = sum / 2 ^ k * 2 ^ k := by
  have hpower : 2 ^ k ≤ 2 ^ 64 := Nat.pow_le_pow_right (by decide) hk
  have hpositive : 0 < 2 ^ k := Nat.two_pow_pos k
  have hmask : 2 ^ 64 - 1 - (2 ^ k - 1) = 2 ^ 64 - ((2 ^ k - 1) + 1) := by omega
  apply Nat.eq_of_testBit_eq
  intro i
  rw [hmask, Nat.testBit_and, Nat.testBit_two_pow_sub_succ (by omega), Nat.testBit_two_pow_sub_one,
    Nat.testBit_mul_two_pow, Nat.testBit_div_two_pow]
  by_cases hlow : i < k
  · simp [hlow, Nat.not_le.mpr hlow]
  · rw [Nat.sub_add_cancel (by omega)]
    by_cases hhigh : i < 64
    · simp [hlow, hhigh, Nat.le_of_not_lt hlow]
    · have hzero : sum.testBit i = false := by
        refine Nat.testBit_lt_two_pow (hsum.trans_le ?_)
        exact Nat.pow_le_pow_right (by decide) (by omega)
      simp [hzero]

theorem exists_of_isPowerOfTwo {n : Nat} (h : isPowerOfTwo n = true) : ∃ k < 64, n = 2 ^ k := by
  simpa [isPowerOfTwo] using h

/-- The data area starts at a multiple of the alignment behind the infos. -/
theorem alignUp_eq_some {value alignment start : Nat} (halignment : isPowerOfTwo alignment = true)
    (h : alignUp value alignment = some start) : value ≤ start ∧ alignment ∣ start := by
  obtain ⟨k, hk, rfl⟩ := exists_of_isPowerOfTwo halignment
  rw [alignUp, Option.ite_none_left_eq_some] at h
  obtain ⟨hfits, h⟩ := h
  rw [not_or, not_le] at hfits
  rw [Option.some.injEq, land_mask (by omega) hfits.2] at h
  have hdivision := Nat.div_add_mod (value + (2 ^ k - 1)) (2 ^ k)
  have hremainder := Nat.mod_lt (value + (2 ^ k - 1)) (Nat.two_pow_pos k)
  rw [Nat.mul_comm] at hdivision
  refine ⟨by omega, ?_⟩
  rw [← h]
  exact Nat.dvd_mul_left _ _

theorem checkOverlaps_eq_ok {spans : List Span} {done : Unit} :
    checkOverlaps spans = .ok done ↔ spans.IsChain fun a b => a.stop ≤ b.start := by
  induction spans with
  | nil => simp [checkOverlaps]
  | cons left rest ih =>
      cases rest with
      | nil => simp [checkOverlaps]
      | cons right rest =>
          simp only [checkOverlaps, CheckedArithmetic.bind_eq_ok, rejectIf_eq_ok, exists_const, ih,
            List.isChain_cons_cons, not_lt]

/-- The bytes of a tensor, in whole blocks. -/
def TensorInfo.size (info : TensorInfo) : Nat :=
  match ggmlBlock info.kind with
  | some (block, bytes) => info.dimensions.prod / block * bytes
  | none => 0

/-- Where a tensor lies when the data area starts at a certain place. -/
def TensorInfo.span (dataStart : Nat) (info : TensorInfo) : Span :=
  ⟨dataStart + info.offset, dataStart + info.offset + info.size⟩

theorem ggmlBlock_positive {kind block bytes : Nat} (h : ggmlBlock kind = some (block, bytes)) :
    0 < block ∧ 0 < bytes := by
  unfold ggmlBlock at h
  split at h <;> cases h <;> decide

/-- A tensor that is placed: aligned, in whole blocks, and inside the data area. -/
structure TensorInfo.Placed (alignment dataLen : Nat) (info : TensorInfo) : Prop where
  aligned : alignment ∣ info.offset
  blocks : ∃ block bytes, ggmlBlock info.kind = some (block, bytes) ∧
    block ∣ info.dimensions.prod ∧ info.size = info.dimensions.prod / block * bytes
  inside : info.offset + info.size ≤ dataLen

theorem tensorSpan_eq_ok {alignment dataLen : Nat} {tensor : GgufTensor} {span : Span}
    (h : tensorSpan alignment dataLen tensor = .ok span) :
    alignment ∣ tensor.offset ∧ ∃ block bytes, ggmlBlock tensor.kind = some (block, bytes) ∧
      block ∣ tensor.elements ∧ tensor.offset + tensor.elements / block * bytes ≤ dataLen ∧
      span = ⟨tensor.offset, tensor.offset + tensor.elements / block * bytes⟩ := by
  simp only [tensorSpan, validateTensorAlignment, ggmlTensorBytes, CheckedArithmetic.bind_eq_ok,
    rejectIf_eq_ok, okOr_eq_ok, exists_const, not_not, not_lt, checkedMul_eq_some] at h
  obtain ⟨haligned, _, ⟨⟨block, bytes⟩, hblock, hwhole, _, rfl⟩, _, hinside, hspan⟩ := h
  cases hspan
  exact ⟨haligned, block, bytes, hblock, hwhole, hinside, rfl⟩

theorem placed_of_tensorSpan {alignment dataLen : Nat} {info : TensorInfo} {span : Span}
    (h : tensorSpan alignment dataLen info.tensor = .ok span) :
    info.Placed alignment dataLen ∧ span = ⟨info.offset, info.offset + info.size⟩ := by
  obtain ⟨haligned, block, bytes, hblock, hwhole, hinside, hspan⟩ := tensorSpan_eq_ok h
  have hsize : info.size = info.dimensions.prod / block * bytes := by
    rw [TensorInfo.tensor] at hblock
    rw [TensorInfo.size, hblock]
  refine ⟨⟨haligned, ⟨block, bytes, hblock, hwhole, hsize⟩, ?_⟩, ?_⟩
  · rw [hsize]
    exact hinside
  · rw [hsize]
    exact hspan

theorem TensorInfo.Placed.size_pos {alignment dataLen : Nat} {info : TensorInfo}
    (h : info.Placed alignment dataLen) (hsound : info.Sound) : 0 < info.size := by
  obtain ⟨block, bytes, hblock, hwhole, hsize⟩ := h.blocks
  obtain ⟨hblock', hbytes⟩ := ggmlBlock_positive hblock
  have helements : 0 < info.dimensions.prod := List.prod_pos_iff_forall_pos_nat.mpr
    fun dimension hmem => Nat.pos_of_ne_zero (hsound.dimensions dimension hmem).1
  rw [hsize]
  exact Nat.mul_pos (Nat.div_pos (Nat.le_of_dvd helements hwhole) hblock') hbytes

theorem mapM_tensorSpan {alignment dataLen : Nat} {infos : List TensorInfo} {ranges : List Span}
    (h : (infos.map TensorInfo.tensor).mapM (tensorSpan alignment dataLen) = .ok ranges) :
    (∀ info ∈ infos, info.Placed alignment dataLen) ∧
      ranges = infos.map fun info => ⟨info.offset, info.offset + info.size⟩ := by
  induction infos generalizing ranges with
  | nil =>
      cases h
      exact ⟨by simp, rfl⟩
  | cons info rest ih =>
      rw [List.map_cons, List.mapM_cons] at h
      obtain ⟨span, hspan, h⟩ := CheckedArithmetic.bind_eq_ok.mp h
      obtain ⟨spans, hspans, h⟩ := CheckedArithmetic.bind_eq_ok.mp h
      cases h
      obtain ⟨hplaced, rfl⟩ := placed_of_tensorSpan hspan
      obtain ⟨hrest, rfl⟩ := ih hspans
      exact ⟨List.forall_mem_cons.mpr ⟨hplaced, hrest⟩, rfl⟩

/-- What the checks behind the infos establish. -/
theorem checkDataArea_eq_ok {fileSize infoEnd alignment : Nat} {infos : List TensorInfo}
    (halignment : isPowerOfTwo alignment = true)
    (h : checkDataArea fileSize infoEnd alignment (infos.map TensorInfo.tensor) = .ok ()) :
    ∃ dataStart, infoEnd ≤ dataStart ∧ alignment ∣ dataStart ∧ dataStart < fileSize ∧
      (∀ info ∈ infos, info.Placed alignment (fileSize - dataStart)) ∧
      infos.Pairwise fun a b => (a.span dataStart).Apart (b.span dataStart) := by
  simp only [checkDataArea, CheckedArithmetic.bind_eq_ok, okOr_eq_ok, rejectIf_eq_ok, exists_const,
    not_le, checkOverlaps_eq_ok] at h
  obtain ⟨dataStart, hstart, hsize, ranges, hranges, hchain⟩ := h
  obtain ⟨hplaced, hmap⟩ := mapM_tensorSpan hranges
  obtain ⟨hbehind, haligned⟩ := alignUp_eq_some halignment hstart
  have hproper : ∀ span ∈ sortSpans id ranges, span.start ≤ span.stop := by
    intro span hspan
    rw [hmap] at hspan
    obtain ⟨info, _, rfl⟩ := List.mem_map.mp ((perm_sortSpans id _).subset hspan)
    exact Nat.le_add_right _ _
  have hsorted := @pairwise_of_neighbours _ id _ hproper hchain
  have hpairs : ranges.Pairwise Span.Apart := by
    have hapart : (sortSpans id ranges).Pairwise Span.Apart := hsorted.imp fun hle => .inl hle
    exact (perm_sortSpans id ranges).pairwise hapart fun hab => hab.symm
  refine ⟨dataStart, hbehind, haligned, hsize, hplaced, ?_⟩
  rw [hmap, List.pairwise_map] at hpairs
  refine hpairs.imp fun hab => ?_
  simp only [Span.Apart, TensorInfo.span] at hab ⊢
  omega

end DataArea

/-- The alignment in force: that of the last entry that states one. -/
def alignmentOf (entries : List GgufEntry) : Nat :=
  ((entries.filter fun entry => entry.IsAlignment).getLast?.map fun entry =>
    entry.value.number).getD 32

mutual

/-- How deep arrays are nested in a value. -/
def GgufValue.depth : GgufValue → Nat
  | .scalar _ _ => 0
  | .string _ => 0
  | .array _ elements => depthAll elements + 1

def GgufValue.depthAll : List GgufValue → Nat
  | [] => 0
  | element :: rest => max element.depth (depthAll rest)

end

section Metadata
variable {metadata next : GgufMetadata} {entry : GgufEntry}

mutual

theorem GgufValue.depth_le : ∀ (value : GgufValue) {levels : Nat},
    value.accepted levels = true → value.depth ≤ levels
  | .scalar _ _, _, _ => Nat.zero_le _
  | .string _, _, _ => Nat.zero_le _
  | .array _ elements, levels, h => by
      rw [accepted] at h
      simp only [Bool.and_eq_true, decide_eq_true_eq] at h
      obtain ⟨⟨hlevels, _⟩, hall⟩ := h
      have hdepth := GgufValue.depthAll_le elements hall
      rw [GgufValue.depth]
      omega

theorem GgufValue.depthAll_le : ∀ (elements : List GgufValue) {levels : Nat},
    GgufValue.acceptedAll levels elements = true → GgufValue.depthAll elements ≤ levels
  | [], _, _ => Nat.zero_le _
  | element :: rest, levels, h => by
      rw [GgufValue.acceptedAll, Bool.and_eq_true] at h
      rw [GgufValue.depthAll]
      exact max_le (GgufValue.depth_le element h.1) (GgufValue.depthAll_le rest h.2)

end

/-- What one entry that is accepted does to the state. -/
theorem add_eq_some (hwell : entry.WellFormed) (h : metadata.add entry = some next) :
    entry.value.accepted (maxArrayDepth + 1) = true ∧
      next.alignment = (if entry.IsAlignment then entry.value.number else metadata.alignment) ∧
      (entry.IsAlignment → validAlignment entry.value.number = true) := by
  have hscalar : ∀ width, ggufFixedWidth entry.value.kind = some width →
      entry.value.accepted (maxArrayDepth + 1) = true :=
    fun width hwidth => (encode_of_fixedWidth hwidth rfl hwell.value).2 _
  rw [GgufMetadata.add] at h
  cases hkey : stringText entry.key with
  | none =>
      rw [hkey] at h
      cases h
  | some key =>
      simp only [hkey] at h
      by_cases halignment : key = "general.alignment" ∧ entry.value.kind = 4
      · obtain ⟨rfl, hkind⟩ := halignment
        have hin : entry.IsAlignment := ⟨hkey, hkind⟩
        rw [if_pos ⟨rfl, hkind⟩, Option.ite_none_right_eq_some] at h
        obtain ⟨hvalid, hnext⟩ := h
        cases hnext
        exact ⟨hscalar 4 (by rw [hkind]; rfl), by rw [if_pos hin], fun _ => hvalid⟩
      · have hout : ¬ entry.IsAlignment := by
          rintro ⟨hname, hkind⟩
          rw [hkey, Option.some.injEq] at hname
          exact halignment ⟨hname, hkind⟩
        rw [if_neg halignment] at h
        rw [if_neg hout]
        refine ⟨?_, ?_, fun hin => absurd hin hout⟩
        · split at h
          · rw [Option.ite_none_left_eq_some, not_or, not_not] at h
            exact hscalar 2 (by rw [h.1.1]; rfl)
          · split at h
            · rw [Option.ite_none_left_eq_some, not_or, not_not] at h
              exact hscalar 2 (by rw [h.1.1]; rfl)
            · rw [Option.ite_none_right_eq_some] at h
              exact h.1
        · split at h
          · rw [Option.ite_none_left_eq_some] at h
            cases h.2
            rfl
          · split at h
            · rw [Option.ite_none_left_eq_some] at h
              cases h.2
              rfl
            · rw [Option.ite_none_right_eq_some] at h
              cases h.2
              rfl

/-- What all entries do to the state. -/
theorem foldlM_add_eq_some {entries : List GgufEntry}
    (hwell : ∀ entry ∈ entries, entry.WellFormed)
    (h : entries.foldlM GgufMetadata.add metadata = some next) :
    (∀ entry ∈ entries, entry.value.accepted (maxArrayDepth + 1) = true) ∧
      next.alignment = ((entries.filter fun entry => entry.IsAlignment).getLast?.map fun entry =>
        entry.value.number).getD metadata.alignment ∧
      (validAlignment metadata.alignment = true → validAlignment next.alignment = true) := by
  induction entries generalizing metadata with
  | nil =>
      cases h
      exact ⟨by simp, rfl, id⟩
  | cons entry rest ih =>
      rw [List.forall_mem_cons] at hwell
      obtain ⟨hentry, hrest⟩ := hwell
      rw [List.foldlM_cons] at h
      obtain ⟨middle, hstep, h⟩ := Option.bind_eq_some_iff.mp h
      obtain ⟨haccepted, halignment, hvalid⟩ := add_eq_some hentry hstep
      obtain ⟨hall, hlast, hkept⟩ := ih hrest h
      refine ⟨List.forall_mem_cons.mpr ⟨haccepted, hall⟩, ?_, fun hstart => hkept ?_⟩
      · rw [hlast, halignment]
        by_cases hin : entry.IsAlignment
        · rw [if_pos hin, List.filter_cons_of_pos (by simpa using hin), List.getLast?_cons]
          cases (rest.filter fun entry => entry.IsAlignment).getLast? with
          | none => rfl
          | some last => rfl
        · rw [if_neg hin, List.filter_cons_of_neg (by simpa using hin)]
      · rw [halignment]
        by_cases hin : entry.IsAlignment
        · rw [if_pos hin]
          exact hvalid hin
        · rw [if_neg hin]
          exact hstart

theorem split_eq_ok {info : GgufSplitInfo} (h : metadata.split = .ok (some info)) :
    info.index < info.count ∧ 2 ≤ info.count := by
  rw [GgufMetadata.split] at h
  split at h
  · cases h
  · split at h
    · cases h
    · split at h
      · rename_i hvalid
        cases h
        exact ⟨hvalid.2, hvalid.1⟩
      · cases h
  · cases h

/-- What the head of an accepted file says. -/
theorem headOf_eq_some {version tensorCount : Nat} {entries : List GgufEntry} {head : GgufHead}
    (hwell : ∀ entry ∈ entries, entry.WellFormed)
    (h : headOf version tensorCount entries = some head) :
    head.tensorCount = tensorCount ∧ 1 ≤ tensorCount ∧ head.alignment = alignmentOf entries ∧
      isPowerOfTwo head.alignment = true ∧
      (∀ entry ∈ entries, entry.value.accepted (maxArrayDepth + 1) = true) ∧
      ∀ info, head.split = some info → info.index < info.count ∧ 2 ≤ info.count := by
  rw [headOf, Option.ite_none_right_eq_some] at h
  obtain ⟨⟨_, ⟨hpositive, _⟩, _⟩, h⟩ := h
  obtain ⟨metadata, hfold, h⟩ := Option.bind_eq_some_iff.mp h
  obtain ⟨split, hsplit, hhead⟩ := Option.map_eq_some_iff.mp h
  obtain ⟨haccepted, halignment, hvalid⟩ := foldlM_add_eq_some hwell hfold
  have hpower : validAlignment metadata.alignment = true := hvalid (by decide)
  rw [validAlignment, Bool.and_eq_true, Bool.and_eq_true] at hpower
  cases hhead
  refine ⟨rfl, hpositive, halignment, hpower.1.2, haccepted, fun info hinfo => ?_⟩
  subst hinfo
  cases hvalue : metadata.split with
  | error e =>
      rw [hvalue] at hsplit
      cases hsplit
  | ok value =>
      rw [hvalue] at hsplit
      cases hsplit
      exact split_eq_ok hvalue

end Metadata

/-- The parts of a file. -/
structure GgufLayout where
  version : Nat
  entries : List GgufEntry
  infos : List TensorInfo
  /-- What stands behind the tensor infos. -/
  rest : List UInt8
  dataStart : Nat

/-- A file of so many tensors, with all of its parts inside it. -/
structure SoundFile (file : List UInt8) (n : Nat) (split : Option GgufSplitInfo)
    (layout : GgufLayout) : Prop where
  bytes : file = encodeHead layout.version n layout.entries ++
    (layout.infos.flatMap TensorInfo.encode ++ layout.rest)
  entries : ∀ entry ∈ layout.entries, entry.WellFormed ∧
    entry.value.accepted (maxArrayDepth + 1) = true ∧ entry.value.depth ≤ maxArrayDepth + 1
  count : layout.infos.length = n ∧ 1 ≤ n
  infos : ∀ info ∈ layout.infos, (1 ≤ info.dimensions.length ∧ info.dimensions.length ≤ 4) ∧
    (∀ dimension ∈ info.dimensions, dimension ≠ 0) ∧ info.dimensions.prod < 2 ^ 64
  dataStart : file.length - layout.rest.length ≤ layout.dataStart ∧
    alignmentOf layout.entries ∣ layout.dataStart
  placed : ∀ info ∈ layout.infos, alignmentOf layout.entries ∣ info.offset ∧
    (∃ block bytes, ggmlBlock info.kind = some (block, bytes) ∧ block ∣ info.dimensions.prod ∧
      info.size = info.dimensions.prod / block * bytes) ∧
    0 < info.size ∧ layout.dataStart + info.offset + info.size ≤ file.length
  apart : layout.infos.Pairwise fun a b =>
    (a.span layout.dataStart).Apart (b.span layout.dataStart)
  split : ∀ info, split = some info → info.index < info.count ∧ 2 ≤ info.count

section Soundness

theorem reads_validateGguf (fileSize : Nat) :
    Reads True (validateGguf fileSize) fun _ _ => True := by
  have hposition : ∀ cursor, Advances 0 cursor cursor := .refl 0
  have hstream : Reads True streamPosition fun _ bytes => bytes = [] := by
    constructor
    · intro before a after h
      cases h
      exact ⟨hposition _, .inr ⟨[], rfl, rfl, rfl⟩⟩
    · intro before e after h
      cases h
  refine (reads_readGgufHead.bind fun head => (Reads.collect (reads_readTensor.mono
    fun _ _ h => h) head.tensorCount).bind fun tensors => hstream.bind fun infoEnd =>
      (reads_orThrow _).bind fun _ => reads_pure _ (P := fun _ _ => True) trivial).mono ?_
  exact fun _ _ _ => trivial

theorem tensorCount_pos {before after : Cursor} {head : GgufHead}
    (h : readGgufHead before = .ok head after) : 0 < head.tensorCount := by
  simp only [readGgufHead, run_bind_eq_ok, run_refuseIf_eq_ok] at h
  obtain ⟨_, _, _, _, _, _, _, _, _, _, _, _, tensorCount, _, _, _, _, _, _, _, ⟨hcount, _⟩, _, _, _,
    _, _, _, _, _, _, hhead⟩ := h
  cases hhead
  exact Nat.pos_of_ne_zero fun hzero => hcount (.inl hzero)

/-- An accepted file starts with a head that is accepted, and the tail fits. -/
theorem exists_head_of_ok {file : List UInt8} {result : Nat × Option GgufSplitInfo}
    {after : Cursor} (h : runGguf file = .ok result after) :
    ∃ version tensorCount entries tail head,
      (∀ entry ∈ entries, GgufEntry.WellFormed entry) ∧
      file = encodeHead version tensorCount entries ++ tail ∧
      headOf version tensorCount entries = some head ∧
      TailFits file.length (encodeHead version tensorCount entries).length head.alignment
        head.tensorCount tail ∧ result = (head.tensorCount, head.split) := by
  obtain ⟨head, ⟨tail, start, reads⟩, hhead, htensors⟩ := run_bind_eq_ok.mp h
  obtain ⟨hfits, hresult⟩ := readGgufTensors_ok.mp ⟨after, htensors⟩
  obtain ⟨_, ⟨_, hpassed⟩ | ⟨bytes, hrest, hplace, version, tensorCount, entries, hwell, rfl,
    hvalue⟩⟩ := reads_readGgufHead.ok _ _ _ hhead
  · obtain ⟨infos, rest, htail, hcount, _⟩ := hfits
    simp only at hpassed
    rw [hpassed, eq_comm, List.append_eq_nil_iff] at htail
    have hpositive := tensorCount_pos hhead
    cases infos with
    | nil => exact absurd hcount.symm hpositive.ne'
    | cons info infos =>
        have hlength := congrArg List.length htail.1
        simp [TensorInfo.encode, encodeString] at hlength
  · simp only [Nat.zero_add] at hrest hplace
    subst hplace
    exact ⟨version, tensorCount, entries, tail, head, hwell, hrest, hvalue, hfits, hresult⟩

/-- The validator ends after at most one read for each byte of the file and one more, and a
file that it accepts is sound. -/
theorem validateGguf_sound (file : List UInt8) :
    (∀ result after, runGguf file = .ok result after → after.reads ≤ file.length) ∧
    (∀ e after, runGguf file = .error e after → after.reads ≤ file.length + 1) ∧
    ∀ n split after, runGguf file = .ok (n, split) after →
      ∃ layout, SoundFile file n split layout := by
  refine ⟨fun result after h => ?_, fun e after h => ?_, fun n split after h => ?_⟩
  · have hreads := ((reads_validateGguf file.length).ok _ _ _ h).1.reads
    simp only [Nat.zero_add, Nat.add_zero] at hreads
    omega
  · have hreads := ((reads_validateGguf file.length).error _ _ _ h).reads
    simp only [Nat.zero_add] at hreads
    omega
  · obtain ⟨version, tensorCount, entries, tail, head, hwell, hfile, hhead,
      ⟨infos, rest, htail, hcount, hsound, hcheck⟩, hresult⟩ := exists_head_of_ok h
    obtain ⟨hn, hpositive, halignment, hpower, haccepted, hsplit⟩ := headOf_eq_some hwell hhead
    cases hresult
    obtain ⟨dataStart, hbehind, haligned, hinside, hplaced, hapart⟩ :=
      checkDataArea_eq_ok hpower hcheck
    rw [halignment] at haligned
    have hlength : file.length = (encodeHead version tensorCount entries).length +
        (infos.flatMap TensorInfo.encode).length + rest.length := by
      rw [hfile, htail, List.length_append, List.length_append, Nat.add_assoc]
    refine ⟨⟨version, entries, infos, rest, dataStart⟩, ?_⟩
    constructor
    · rw [hn, hfile, htail]
    · intro entry hmem
      exact ⟨hwell entry hmem, haccepted entry hmem,
        GgufValue.depth_le entry.value (haccepted entry hmem)⟩
    · exact ⟨hcount, hn ▸ hpositive⟩
    · intro info hmem
      have h := hsound info hmem
      exact ⟨h.rank, fun dimension hd => (h.dimensions dimension hd).1, h.elements⟩
    · refine ⟨?_, haligned⟩
      simp only
      omega
    · intro info hmem
      have h := hplaced info hmem
      have hend := h.inside
      refine ⟨halignment ▸ h.aligned, h.blocks, h.size_pos (hsound info hmem), ?_⟩
      simp only
      omega
    · exact hapart
    · exact hsplit

/-- One tensor of one number, without metadata. -/
def sampleGguf : List UInt8 :=
  encodeHead 3 1 [] ++ (TensorInfo.encode ⟨utf8 "t", [1], 0, 0⟩ ++ List.replicate 11 0)

theorem validateGguf_sound_sample : ∃ layout, SoundFile sampleGguf 1 none layout := by
  have hverdict : verdict sampleGguf = some (1, none) := by decide +kernel
  obtain ⟨after, hrun⟩ := verdict_eq_some.mp hverdict
  exact (validateGguf_sound sampleGguf).2.2 1 none after hrun

end Soundness

end MindOne.Engine
