import ProfilerGetSymbols.Object
import ProfilerGetSymbols.ProgLib.BitList

/-! # Read statistics — what a file wrapper counts

    A build with `partial_read_stats` counts, for every file it wraps, the bytes
    read and the chunks that they lie in, and prints a report when the wrapper is
    dropped.  The counting comes before the read, and it slices a bit vector by
    the read's own offsets.

    `Life` is a wrapper from its making to its report.  Over a whole life the bits
    are exactly the chunks touched, and the bytes read never fall below theirs. -/

namespace ProfilerGetSymbols.ReadStats

open ProgLib

/-- `CHUNK_SIZE`. -/
def chunkSize : Nat := 32 * 1024

/-- `a * b` on `u64`. -/
def u64Mul (a b : Nat) : Nat := a * b % 2 ^ 64

structure FileReadStats where
  bytesRead : Nat
  uniqueChunksRead : List Bool
  readCallCount : Nat
  deriving DecidableEq, Repr

/-- The places where the statistics panic. -/
inductive Site where
  /-- `assert!(size_in_bytes > 0)`. -/
  | emptyFile
  /-- `self.unique_chunks_read[chunk_index_start..chunk_index_end]`, or `chunkbits[0]`. -/
  | chunkOutOfRange
  /-- A percentage of no bytes: a division by zero. -/
  | nothingRead
  deriving DecidableEq, Repr

namespace FileReadStats

variable [Target] {ε : Type}

def new (sizeInBytes : Nat) : Outcome Site ε FileReadStats := do
  Outcome.assert .emptyFile (0 < sizeInBytes)
  let chunkCount := (sizeInBytes - 1) / chunkSize + 1
  return ⟨0, List.replicate (asUsize chunkCount) false, 0⟩

/-- The bytes that a read adds: those of its chunks, without what comes before the
    read in a first chunk that was read before. -/
def addedBytes (firstBit : Bool) (start chunkIndexStart chunkIndexEnd : Nat) : Nat :=
  if firstBit then u64Sub (u64Mul chunkIndexEnd chunkSize) start
  else u64Mul (u64Sub chunkIndexEnd chunkIndexStart) chunkSize

def recordRead (s : FileReadStats) (offset size : Nat) : Outcome Site ε FileReadStats :=
  if size = 0 then
    return s
  else do
    let start := offset
    let stop := u64Add offset size
    let chunkIndexStart := start / chunkSize
    let chunkIndexEnd := u64Sub stop 1 / chunkSize + 1
    let first := asUsize chunkIndexStart
    let last := asUsize chunkIndexEnd
    Outcome.assert .chunkOutOfRange (first ≤ last ∧ last ≤ s.uniqueChunksRead.length)
    let chunkbits := BitList.part s.uniqueChunksRead first last
    let uniqueChunksRead := BitList.fill s.uniqueChunksRead first last
    if chunkbits.count true ≠ asUsize (u64Sub chunkIndexEnd chunkIndexStart) then
      let firstBit ← Outcome.unwrap .chunkOutOfRange chunkbits[0]?
      return {
        bytesRead :=
          u64Add s.bytesRead (addedBytes firstBit start chunkIndexStart chunkIndexEnd)
        uniqueChunksRead := uniqueChunksRead
        readCallCount := u64Add s.readCallCount 1 }
    else
      return { s with uniqueChunksRead := uniqueChunksRead }

def uniqueBytesRead (s : FileReadStats) : Nat := u64Mul (s.uniqueChunksRead.count true) chunkSize

/-- `Display`, with `bytesize`'s. -/
def display (byteSize : Nat → String) (s : FileReadStats) : Outcome Site ε String := do
  let uniqueBytesRead := s.uniqueBytesRead
  let repeatedBytesRead := u64Sub s.bytesRead uniqueBytesRead
  Outcome.assert .nothingRead (uniqueBytesRead ≠ 0)
  let redundancyPercentage := u64Mul repeatedBytesRead 100 / uniqueBytesRead
  return byteSize s.bytesRead ++ " total, " ++ byteSize uniqueBytesRead ++ " unique, "
    ++ toString redundancyPercentage ++ "% redundancy, " ++ toString s.readCallCount
    ++ " reads total"

end FileReadStats

/-! ## The wrapper -/

/-- A file's contents with `read_bytes_into`, by the bytes it appends. -/
structure BufferedContents extends FileContents where
  readBytesInto : Nat → Nat → Except String Bytes

/-- `FileContents` for slices. -/
def BufferedContents.ofBytes [Target] (bytes : Bytes) : BufferedContents :=
  { FileContents.ofBytes bytes with readBytesInto := sliceReadBytesAt bytes }

/-- A call of the wrapper. -/
inductive Read where
  | bytesAt (offset size : Nat)
  | bytesAtUntil (range : ByteRange) (delimiter : UInt8)
  | bytesInto (offset size : Nat)
  deriving DecidableEq, Repr

/-- What the contents themselves answer. -/
def BufferedContents.answer (file : BufferedContents) : Read → Except String Bytes
  | .bytesAt offset size => file.readBytesAt offset size
  | .bytesAtUntil range delimiter => file.readBytesAtUntil range delimiter
  | .bytesInto offset size => file.readBytesInto offset size

section Wrapper

variable [Target]

/-- The methods of `FileContentsWrapper`: the statistics come with a method that
    fails, as its error is the caller's to look at. -/
def read (file : BufferedContents) (s : FileReadStats) :
    Read → Outcome Site Empty (Except String Bytes × FileReadStats)
  | .bytesAt offset size => do
      let s ← s.recordRead offset size
      return (file.readBytesAt offset size, s)
  | .bytesAtUntil range delimiter =>
      match file.readBytesAtUntil range delimiter with
      | .ok bytes => do
          let s ← s.recordRead range.start (bytes.length + 1)
          return (.ok bytes, s)
      | .error e => return (.error e, s)
  | .bytesInto offset size => do
      let s ← s.recordRead offset size
      return (file.readBytesInto offset size, s)

/-- Calls of the wrapper, one after the other. -/
def readAll (file : BufferedContents) :
    FileReadStats → List Read → Outcome Site Empty (List (Except String Bytes) × FileReadStats)
  | s, [] => return ([], s)
  | s, r :: reads => do
      let (answer, s) ← read file s r
      let (answers, s) ← readAll file s reads
      return (answer :: answers, s)

/-- A wrapper's life: it is made, it reads, and it reports when it is dropped. -/
def life (byteSize : Nat → String) (file : BufferedContents) (reads : List Read) :
    Outcome Site Empty (List (Except String Bytes) × String) := do
  let s ← FileReadStats.new file.len
  let (answers, s) ← readAll file s reads
  let report ← s.display byteSize
  return (answers, report)

end Wrapper

/-! ## The chunks of a stretch -/

/-- The chunks that a stretch of the file, an offset and a size, lies in. -/
def chunksOf (stretch : Nat × Nat) : Finset Nat :=
  if stretch.2 = 0 then ∅
  else Finset.Ico (stretch.1 / chunkSize) ((stretch.1 + stretch.2 - 1) / chunkSize + 1)

/-- The chunks that some stretch lies in. -/
def touched (stretches : List (Nat × Nat)) : Finset Nat := stretches.toFinset.biUnion chunksOf

/-- The chunks of a file. -/
def chunkCount (fileLen : Nat) : Nat := (fileLen - 1) / chunkSize + 1

/-- A stretch that is empty or ends in the last chunk at the latest. -/
def InChunks (fileLen : Nat) (stretch : Nat × Nat) : Prop :=
  stretch.2 = 0 ∨ stretch.1 + stretch.2 ≤ chunkCount fileLen * chunkSize

instance (fileLen : Nat) (stretch : Nat × Nat) : Decidable (InChunks fileLen stretch) :=
  inferInstanceAs (Decidable (_ ∨ _))

/-- The stretch that a call is counted with: of a search, what it found and the
    delimiter behind it. -/
def BufferedContents.stretch (file : BufferedContents) : Read → Option (Nat × Nat)
  | .bytesAt offset size => some (offset, size)
  | .bytesAtUntil range delimiter =>
      match file.readBytesAtUntil range delimiter with
      | .ok bytes => some (range.start, bytes.length + 1)
      | .error _ => none
  | .bytesInto offset size => some (offset, size)

/-- The stretches that calls are counted with. -/
def BufferedContents.stretches (file : BufferedContents) (reads : List Read) : List (Nat × Nat) :=
  reads.filterMap file.stretch

theorem chunksOf_nonempty {stretch : Nat × Nat} (h : stretch.2 ≠ 0) : (chunksOf stretch).Nonempty := by
  rw [chunksOf, if_neg h, Finset.nonempty_Ico]
  have : stretch.1 / chunkSize ≤ (stretch.1 + stretch.2 - 1) / chunkSize :=
    Nat.div_le_div_right (by omega)
  omega

theorem touched_cons (stretch : Nat × Nat) (stretches : List (Nat × Nat)) :
    touched (stretch :: stretches) = chunksOf stretch ∪ touched stretches := by
  rw [touched, List.toFinset_cons, Finset.biUnion_insert]
  rfl

/-- Something was touched if and only if some stretch is not empty. -/
theorem touched_nonempty {stretches : List (Nat × Nat)} :
    (touched stretches).Nonempty ↔ ∃ stretch ∈ stretches, stretch.2 ≠ 0 := by
  rw [touched, Finset.biUnion_nonempty]
  constructor
  · rintro ⟨stretch, hmem, hne⟩
    refine ⟨stretch, List.mem_toFinset.mp hmem, fun h => ?_⟩
    rw [chunksOf, if_pos h] at hne
    exact Finset.not_nonempty_empty hne
  · rintro ⟨stretch, hmem, hne⟩
    exact ⟨stretch, List.mem_toFinset.mpr hmem, chunksOf_nonempty hne⟩

/-! ## One read -/

/-- The bytes that a stretch adds where the chunks `T` were read before. -/
def added (T : Finset Nat) (stretch : Nat × Nat) : Nat :=
  if chunksOf stretch ⊆ T then 0
  else if stretch.1 / chunkSize ∈ T then
    ((stretch.1 + stretch.2 - 1) / chunkSize + 1) * chunkSize - stretch.1
  else (chunksOf stretch).card * chunkSize

/-- The statistics after a stretch, without a bound on the integers. -/
def FileReadStats.after (s : FileReadStats) (stretch : Nat × Nat) : FileReadStats :=
  let T := BitList.ones s.uniqueChunksRead
  { bytesRead := s.bytesRead + added T stretch
    uniqueChunksRead :=
      if stretch.2 = 0 then s.uniqueChunksRead
      else BitList.fill s.uniqueChunksRead (stretch.1 / chunkSize)
        ((stretch.1 + stretch.2 - 1) / chunkSize + 1)
    readCallCount := s.readCallCount + if chunksOf stretch ⊆ T then 0 else 1 }

/-- The bytes counted for stretches, where the chunks `T` were read before. -/
def countedBytes (T : Finset Nat) : List (Nat × Nat) → Nat
  | [] => 0
  | stretch :: stretches => added T stretch + countedBytes (T ∪ chunksOf stretch) stretches

/-- The calls counted: those with a chunk that was not read before. -/
def countedCalls (T : Finset Nat) : List (Nat × Nat) → Nat
  | [] => 0
  | stretch :: stretches =>
      (if chunksOf stretch ⊆ T then 0 else 1) + countedCalls (T ∪ chunksOf stretch) stretches

/-- What is added covers the new chunks, and is no more than all the stretch's. -/
theorem added_bounds (T : Finset Nat) (stretch : Nat × Nat) :
    (chunksOf stretch \ T).card * chunkSize ≤ added T stretch ∧
      added T stretch ≤ ((stretch.1 + stretch.2 - 1) / chunkSize + 1) * chunkSize := by
  rw [added]
  by_cases hsub : chunksOf stretch ⊆ T
  · rw [if_pos hsub, Finset.sdiff_eq_empty_iff_subset.mpr hsub, Finset.card_empty]
    omega
  · rw [if_neg hsub]
    have hne : stretch.2 ≠ 0 := by
      intro h
      rw [chunksOf, if_pos h] at hsub
      exact hsub (Finset.empty_subset _)
    have hcard : (chunksOf stretch).card
        = (stretch.1 + stretch.2 - 1) / chunkSize + 1 - stretch.1 / chunkSize := by
      rw [chunksOf, if_neg hne, Nat.card_Ico]
    by_cases hfirst : stretch.1 / chunkSize ∈ T
    · -- the first chunk is not new
      have hmem : stretch.1 / chunkSize ∈ chunksOf stretch := by
        rw [chunksOf, if_neg hne, Finset.mem_Ico]
        have : stretch.1 / chunkSize ≤ (stretch.1 + stretch.2 - 1) / chunkSize :=
          Nat.div_le_div_right (by omega)
        omega
      have hlt : (chunksOf stretch \ T).card < (chunksOf stretch).card := by
        refine Finset.card_lt_card ⟨Finset.sdiff_subset, fun h => ?_⟩
        exact (Finset.mem_sdiff.mp (h hmem)).2 hfirst
      rw [if_pos hfirst]
      unfold chunkSize at *
      omega
    · have hle : (chunksOf stretch \ T).card ≤ (chunksOf stretch).card :=
        Finset.card_le_card Finset.sdiff_subset
      rw [if_neg hfirst]
      unfold chunkSize at *
      omega

variable {s : FileReadStats} {stretch : Nat × Nat}

/-- The bits of the stretch, where it is in the chunks. -/
theorem chunk_bounds {fileLen : Nat} (hne : stretch.2 ≠ 0) (hin : InChunks fileLen stretch) :
    stretch.1 / chunkSize < (stretch.1 + stretch.2 - 1) / chunkSize + 1 ∧
      (stretch.1 + stretch.2 - 1) / chunkSize + 1 ≤ chunkCount fileLen := by
  have hle := hin.resolve_left hne
  have hlt : (stretch.1 + stretch.2 - 1) / chunkSize < chunkCount fileLen := by
    rw [Nat.div_lt_iff_lt_mul (by decide)]
    omega
  have : stretch.1 / chunkSize ≤ (stretch.1 + stretch.2 - 1) / chunkSize :=
    Nat.div_le_div_right (by omega)
  omega

/-- The counters are `u64` values. -/
structure CountersFit (s : FileReadStats) : Prop where
  bytesRead : s.bytesRead < 2 ^ 64
  readCallCount : s.readCallCount < 2 ^ 64

/-- The counters modulo their width. -/
def FileReadStats.wrap (s : FileReadStats) : FileReadStats :=
  { s with bytesRead := s.bytesRead % 2 ^ 64, readCallCount := s.readCallCount % 2 ^ 64 }

theorem FileReadStats.countersFit_wrap (s : FileReadStats) : CountersFit s.wrap :=
  ⟨Nat.mod_lt _ (by decide), Nat.mod_lt _ (by decide)⟩

theorem CountersFit.wrap_eq (h : CountersFit s) : s.wrap = s := by
  rw [FileReadStats.wrap, Nat.mod_eq_of_lt h.bytesRead, Nat.mod_eq_of_lt h.readCallCount]

section Record

variable [Target] {ε : Type}

/-- **A READ IN THE CHUNKS** is counted. -/
theorem recordRead_of_inChunks {fileLen : Nat} (h64 : Target.usizeBits = 64)
    (hlen : s.uniqueChunksRead.length = chunkCount fileLen)
    (hfits : chunkCount fileLen * chunkSize < 2 ^ 64) (hs : CountersFit s)
    (hin : InChunks fileLen stretch) :
    (s.recordRead stretch.1 stretch.2 : Outcome Site ε _) = .ok (s.after stretch).wrap := by
  rw [FileReadStats.recordRead]
  by_cases hne : stretch.2 = 0
  · have hempty : chunksOf stretch = ∅ := by rw [chunksOf, if_pos hne]
    rw [if_pos hne, FileReadStats.after, added, hempty, if_pos (Finset.empty_subset _),
      if_pos (Finset.empty_subset _), if_pos hne, Nat.add_zero, Nat.add_zero]
    exact congrArg Outcome.ok hs.wrap_eq.symm
  · obtain ⟨hlt, hle⟩ := chunk_bounds hne hin
    have hend := hin.resolve_left hne
    have hchunks : chunksOf stretch = Finset.Ico (stretch.1 / chunkSize)
        ((stretch.1 + stretch.2 - 1) / chunkSize + 1) := by rw [chunksOf, if_neg hne]
    generalize hfirst : stretch.1 / chunkSize = first at *
    have hstop : u64Sub (u64Add stretch.1 stretch.2) 1 = stretch.1 + stretch.2 - 1 := by
      rw [u64Add_of_lt (by omega), u64Sub_of_le (by omega) (by omega)]
    rw [if_neg hne]
    dsimp only
    rw [hstop, hfirst]
    generalize hlast : (stretch.1 + stretch.2 - 1) / chunkSize + 1 = last at *
    -- none of the casts and sums on the way to the slice of bits wraps
    have hcount : chunkCount fileLen < 2 ^ 64 := by unfold chunkSize at hfits; omega
    have hmul : last * chunkSize ≤ chunkCount fileLen * chunkSize := Nat.mul_le_mul_right _ hle
    have hfirstUsize : asUsize first = first := asUsize_of_lt (by rw [h64]; omega)
    have hlastUsize : asUsize last = last := asUsize_of_lt (by rw [h64]; omega)
    have hwidth : u64Sub last first = last - first := u64Sub_of_le (by omega) (by omega)
    have hwidthUsize : asUsize (last - first) = last - first :=
      asUsize_of_lt (by rw [h64]; omega)
    rw [hfirstUsize, hlastUsize, hwidth, hwidthUsize, Outcome.assert,
      if_pos (show first ≤ last ∧ last ≤ s.uniqueChunksRead.length by omega), Outcome.ok_bind]
    by_cases hsub : chunksOf stretch ⊆ BitList.ones s.uniqueChunksRead
    · -- all of the bits were set: nothing is counted
      have hall : (BitList.part s.uniqueChunksRead first last).count true = last - first :=
        (BitList.count_part_eq_iff ..).mpr (hchunks ▸ hsub)
      rw [if_neg (not_not_intro hall), FileReadStats.after, if_neg hne, added, if_pos hsub,
        if_pos hsub, hfirst, hlast]
      have hwrap := CountersFit.wrap_eq (s := { s with
        uniqueChunksRead := BitList.fill s.uniqueChunksRead first last })
        ⟨hs.bytesRead, hs.readCallCount⟩
      exact congrArg Outcome.ok hwrap.symm
    · -- a chunk is new: the first bit decides how much is counted
      have hnot : (BitList.part s.uniqueChunksRead first last).count true ≠ last - first :=
        fun h => hsub (hchunks ▸ (BitList.count_part_eq_iff ..).mp h)
      rw [if_pos hnot, BitList.part_head hlt (by omega), Outcome.unwrap, Outcome.ok_bind,
        FileReadStats.after, if_neg hne, added, if_neg hsub, if_neg hsub, hfirst, hlast]
      have hadded : FileReadStats.addedBytes (decide (first ∈ BitList.ones s.uniqueChunksRead))
          stretch.1 first last
          = if first ∈ BitList.ones s.uniqueChunksRead then last * chunkSize - stretch.1
            else (chunksOf stretch).card * chunkSize := by
        have hstart : stretch.1 < last * chunkSize := by
          rw [← Nat.div_lt_iff_lt_mul (by decide), hfirst]
          exact hlt
        rw [FileReadStats.addedBytes, hwidth, hchunks, Nat.card_Ico, u64Mul, u64Mul,
          Nat.mod_eq_of_lt (a := last * chunkSize) (by omega),
          u64Sub_of_le (by omega) (by omega)]
        have hwide : (last - first) * chunkSize ≤ last * chunkSize :=
          Nat.mul_le_mul_right _ (Nat.sub_le _ _)
        rw [Nat.mod_eq_of_lt (by omega)]
        by_cases hmem : first ∈ BitList.ones s.uniqueChunksRead
        · rw [decide_eq_true hmem, if_pos rfl, if_pos hmem]
        · rw [decide_eq_false hmem, if_neg Bool.false_ne_true, if_neg hmem]
      rw [hadded]
      rfl

/-- A read behind the last chunk is a panic. -/
theorem recordRead_of_not_inChunks {fileLen : Nat} (h64 : Target.usizeBits = 64)
    (hlen : s.uniqueChunksRead.length = chunkCount fileLen)
    (hend : stretch.1 + stretch.2 < 2 ^ 64) (hin : ¬ InChunks fileLen stretch) :
    (s.recordRead stretch.1 stretch.2 : Outcome Site ε _) = .panic .chunkOutOfRange := by
  obtain ⟨hne, hlt⟩ := not_or.mp hin
  have hstop : u64Sub (u64Add stretch.1 stretch.2) 1 = stretch.1 + stretch.2 - 1 := by
    rw [u64Add_of_lt hend, u64Sub_of_le (by omega) (by omega)]
  have hlast : chunkCount fileLen < (stretch.1 + stretch.2 - 1) / chunkSize + 1 := by
    have : chunkCount fileLen ≤ (stretch.1 + stretch.2 - 1) / chunkSize := by
      rw [Nat.le_div_iff_mul_le (by decide)]
      omega
    omega
  have hbound : (stretch.1 + stretch.2 - 1) / chunkSize + 1 < 2 ^ 64 := by
    unfold chunkSize
    omega
  rw [FileReadStats.recordRead, if_neg hne]
  dsimp only
  rw [hstop, asUsize_of_lt (n := (stretch.1 + stretch.2 - 1) / chunkSize + 1) (by rw [h64]; exact hbound),
    Outcome.assert, if_neg (by omega), Outcome.panic_bind]

end Record

/-! ## A whole life -/

/-- **THE ACCOUNTS** of a file with `n` chunks, after reads in the chunks `T`: no
    counted call without a new chunk, and no chunk without its bytes. -/
structure Accounts (n : Nat) (T : Finset Nat) (s : FileReadStats) : Prop where
  length : s.uniqueChunksRead.length = n
  ones : BitList.ones s.uniqueChunksRead = T
  calls_le : s.readCallCount ≤ T.card
  unique_le : T.card * chunkSize ≤ s.bytesRead
  bytes_le : s.bytesRead ≤ s.readCallCount * (n * chunkSize)

/-- A stretch in the chunks joins its chunks to the bits. -/
theorem bits_after {fileLen : Nat} (hlen : s.uniqueChunksRead.length = chunkCount fileLen)
    (hin : InChunks fileLen stretch) :
    (s.after stretch).uniqueChunksRead.length = chunkCount fileLen ∧
      BitList.ones (s.after stretch).uniqueChunksRead
        = BitList.ones s.uniqueChunksRead ∪ chunksOf stretch := by
  rw [FileReadStats.after, chunksOf]
  by_cases hne : stretch.2 = 0
  · rw [if_pos hne, if_pos hne, Finset.union_empty]
    exact ⟨hlen, rfl⟩
  · obtain ⟨hlt, hle⟩ := chunk_bounds hne hin
    rw [if_neg hne, if_neg hne, BitList.length_fill (by omega) (by omega),
      BitList.ones_fill (by omega) (by omega)]
    exact ⟨hlen, rfl⟩

/-- One stretch keeps the accounts. -/
theorem Accounts.after {fileLen : Nat} {T : Finset Nat} (h : Accounts (chunkCount fileLen) T s)
    (hin : InChunks fileLen stretch) :
    Accounts (chunkCount fileLen) (T ∪ chunksOf stretch) (s.after stretch) := by
  obtain ⟨hlen, rfl, hcalls, hunique, hbytes⟩ := h
  have hcard : (BitList.ones s.uniqueChunksRead ∪ chunksOf stretch).card
      = (chunksOf stretch \ BitList.ones s.uniqueChunksRead).card
        + (BitList.ones s.uniqueChunksRead).card := by
    rw [Finset.union_comm, Finset.card_sdiff_add_card]
  obtain ⟨hlow, hhigh⟩ := added_bounds (BitList.ones s.uniqueChunksRead) stretch
  have hbits := bits_after hlen hin
  have hsum : (BitList.ones s.uniqueChunksRead ∪ chunksOf stretch).card * chunkSize
      ≤ (s.after stretch).bytesRead := by
    show _ ≤ s.bytesRead + added _ stretch
    rw [hcard, Nat.add_mul]
    omega
  by_cases hsub : chunksOf stretch ⊆ BitList.ones s.uniqueChunksRead
  · have hcalls' : (s.after stretch).readCallCount = s.readCallCount := by
      rw [FileReadStats.after, if_pos hsub]
      rfl
    have hbytes' : (s.after stretch).bytesRead = s.bytesRead := by
      rw [FileReadStats.after, added, if_pos hsub]
      rfl
    refine ⟨hbits.1, hbits.2, ?_, hsum, ?_⟩
    · rw [hcalls', hcard]
      omega
    · rw [hcalls', hbytes']
      exact hbytes
  · -- the call is counted, and pays for one new chunk at least
    have hnew : 1 ≤ (chunksOf stretch \ BitList.ones s.uniqueChunksRead).card := by
      rw [Nat.one_le_iff_ne_zero, Finset.card_ne_zero, Finset.sdiff_nonempty]
      exact hsub
    have hne : stretch.2 ≠ 0 := by
      intro h
      rw [chunksOf, if_pos h] at hsub
      exact hsub (Finset.empty_subset _)
    have hcalls' : (s.after stretch).readCallCount = s.readCallCount + 1 := by
      rw [FileReadStats.after, if_neg hsub]
    have hmul : ((stretch.1 + stretch.2 - 1) / chunkSize + 1) * chunkSize
        ≤ chunkCount fileLen * chunkSize := Nat.mul_le_mul_right _ (chunk_bounds hne hin).2
    refine ⟨hbits.1, hbits.2, ?_, hsum, ?_⟩
    · rw [hcalls', hcard]
      omega
    · rw [hcalls', Nat.succ_mul]
      show s.bytesRead + added _ stretch ≤ _
      omega

theorem Accounts.card_le {n : Nat} {T : Finset Nat} (h : Accounts n T s) : T.card ≤ n := by
  rw [← h.ones, ← h.length]
  exact BitList.card_ones_le _

/-- In a file that is not too large nothing wraps. -/
theorem Accounts.countersFit {n : Nat} {T : Finset Nat} (h : Accounts n T s)
    (hsmall : n * (n * chunkSize) < 2 ^ 64) : CountersFit s := by
  have hcalls : s.readCallCount ≤ n := h.calls_le.trans h.card_le
  have hbytes : s.bytesRead ≤ n * (n * chunkSize) :=
    h.bytes_le.trans (Nat.mul_le_mul_right _ hcalls)
  have hn : n ≤ n * (n * chunkSize) := by
    rcases Nat.eq_zero_or_pos n with rfl | hpos
    · exact Nat.zero_le _
    · exact Nat.le_mul_of_pos_right _ (Nat.mul_pos hpos (by decide))
  exact ⟨by omega, by omega⟩

section Life

variable [Target] {file : BufferedContents}

/-- One call of the wrapper: the contents' own answer, and the stretch counted. -/
theorem read_eq (file : BufferedContents) (s : FileReadStats) (r : Read) :
    read file s r = (match file.stretch r with
      | some stretch => s.recordRead stretch.1 stretch.2
      | none => .ok s) >>= fun s => .ok (file.answer r, s) := by
  cases r with
  | bytesAt offset size => rfl
  | bytesAtUntil range delimiter =>
      rw [read, BufferedContents.stretch, BufferedContents.answer]
      cases file.readBytesAtUntil range delimiter with
      | ok bytes => rfl
      | error e => rfl
  | bytesInto offset size => rfl

/-- Calls of the wrapper, one at a time. -/
theorem readAll_cons (file : BufferedContents) (s : FileReadStats) (r : Read) (reads : List Read) :
    readAll file s (r :: reads) = (match file.stretch r with
      | some stretch => s.recordRead stretch.1 stretch.2
      | none => .ok s) >>= fun s =>
        readAll file s reads >>= fun rest => .ok (file.answer r :: rest.1, rest.2) := by
  rw [readAll, read_eq, bind_assoc]
  rfl

/-- The statistics after some stretches. -/
def afterAll (s : FileReadStats) (stretches : List (Nat × Nat)) : FileReadStats :=
  stretches.foldl (fun s stretch => (s.after stretch).wrap) s

/-- The statistics of a file, before any read. -/
def fresh (fileLen : Nat) : FileReadStats := ⟨0, List.replicate (chunkCount fileLen) false, 0⟩

omit [Target] in
theorem accounts_fresh (fileLen : Nat) : Accounts (chunkCount fileLen) ∅ (fresh fileLen) :=
  ⟨List.length_replicate, BitList.ones_replicate_false _, Nat.le_refl _, Nat.zero_le _,
    Nat.zero_le _⟩

omit [Target] in
theorem bits_afterAll {fileLen : Nat} {stretches : List (Nat × Nat)}
    (hin : ∀ stretch ∈ stretches, InChunks fileLen stretch) {s : FileReadStats}
    (hlen : s.uniqueChunksRead.length = chunkCount fileLen) :
    BitList.ones (afterAll s stretches).uniqueChunksRead
      = BitList.ones s.uniqueChunksRead ∪ touched stretches := by
  induction stretches generalizing s with
  | nil => rw [touched, List.toFinset_nil, Finset.biUnion_empty, Finset.union_empty]; rfl
  | cons stretch stretches ih =>
      rw [List.forall_mem_cons] at hin
      obtain ⟨hlen', hones⟩ := bits_after hlen hin.1
      rw [touched_cons, ← Finset.union_assoc, ← hones]
      exact ih hin.2 (s := (s.after stretch).wrap) hlen'

omit [Target] in
theorem length_afterAll {fileLen : Nat} {stretches : List (Nat × Nat)}
    (hin : ∀ stretch ∈ stretches, InChunks fileLen stretch) {s : FileReadStats}
    (hlen : s.uniqueChunksRead.length = chunkCount fileLen) :
    (afterAll s stretches).uniqueChunksRead.length = chunkCount fileLen := by
  induction stretches generalizing s with
  | nil => exact hlen
  | cons stretch stretches ih =>
      rw [List.forall_mem_cons] at hin
      exact ih hin.2 (s := (s.after stretch).wrap) (bits_after hlen hin.1).1

omit [Target] in
/-- **THE ACCOUNTS BALANCE** after any stretches of a file that is not too large. -/
theorem Accounts.afterAll {fileLen : Nat} {stretches : List (Nat × Nat)}
    (hsmall : chunkCount fileLen * (chunkCount fileLen * chunkSize) < 2 ^ 64)
    (hin : ∀ stretch ∈ stretches, InChunks fileLen stretch) {s : FileReadStats} {T : Finset Nat}
    (h : Accounts (chunkCount fileLen) T s) :
    Accounts (chunkCount fileLen) (T ∪ touched stretches) (afterAll s stretches) := by
  induction stretches generalizing s T with
  | nil => rwa [touched, List.toFinset_nil, Finset.biUnion_empty, Finset.union_empty]
  | cons stretch stretches ih =>
      rw [List.forall_mem_cons] at hin
      have hafter := h.after hin.1
      rw [touched_cons, ← Finset.union_assoc]
      refine ih hin.2 (s := (s.after stretch).wrap) ?_
      rw [(hafter.countersFit hsmall).wrap_eq]
      exact hafter

omit [Target] in
/-- The counters after any stretches of such a file. -/
theorem Accounts.counters_afterAll {fileLen : Nat} {stretches : List (Nat × Nat)}
    (hsmall : chunkCount fileLen * (chunkCount fileLen * chunkSize) < 2 ^ 64)
    (hin : ∀ stretch ∈ stretches, InChunks fileLen stretch) {s : FileReadStats} {T : Finset Nat}
    (h : Accounts (chunkCount fileLen) T s) :
    (ReadStats.afterAll s stretches).bytesRead = s.bytesRead + countedBytes T stretches ∧
      (ReadStats.afterAll s stretches).readCallCount
        = s.readCallCount + countedCalls T stretches := by
  induction stretches generalizing s T with
  | nil => exact ⟨rfl, rfl⟩
  | cons stretch stretches ih =>
      rw [List.forall_mem_cons] at hin
      have hafter := h.after hin.1
      have hwrap := (hafter.countersFit hsmall).wrap_eq
      obtain ⟨hbytes, hcalls⟩ :=
        ih hin.2 (s := (s.after stretch).wrap) (by rw [hwrap]; exact hafter)
      rw [hwrap] at hbytes hcalls
      have hones := h.ones
      subst hones
      constructor
      · rw [countedBytes, ← Nat.add_assoc]
        show (ReadStats.afterAll (s.after stretch).wrap stretches).bytesRead = _
        rw [hwrap]
        exact hbytes
      · rw [countedCalls, ← Nat.add_assoc]
        show (ReadStats.afterAll (s.after stretch).wrap stretches).readCallCount = _
        rw [hwrap]
        exact hcalls

variable (h64 : Target.usizeBits = 64)

include h64

/-- Calls in the chunks answer as the contents do. -/
theorem readAll_of_inChunks {fileLen : Nat} (hfits : chunkCount fileLen * chunkSize < 2 ^ 64)
    {reads : List Read} (hin : ∀ stretch ∈ file.stretches reads, InChunks fileLen stretch)
    {s : FileReadStats} (hlen : s.uniqueChunksRead.length = chunkCount fileLen)
    (hs : CountersFit s) :
    readAll file s reads = .ok (reads.map file.answer, afterAll s (file.stretches reads)) := by
  induction reads generalizing s with
  | nil => rfl
  | cons r reads ih =>
      rw [readAll_cons]
      cases hstretch : file.stretch r with
      | none =>
          have hrest : file.stretches (r :: reads) = file.stretches reads :=
            List.filterMap_cons_none hstretch
          rw [hrest] at hin ⊢
          rw [Outcome.ok_bind, ih hin hlen hs]
          rfl
      | some stretch =>
          have hrest : file.stretches (r :: reads) = stretch :: file.stretches reads :=
            List.filterMap_cons_some hstretch
          rw [hrest, List.forall_mem_cons] at hin
          rw [hrest]
          dsimp only
          rw [recordRead_of_inChunks h64 hlen hfits hs hin.1, Outcome.ok_bind,
            ih hin.2 (s := (s.after stretch).wrap) (bits_after hlen hin.1).1
              (FileReadStats.countersFit_wrap _)]
          rfl

/-- A call behind the last chunk is a panic, whatever comes before and after it. -/
theorem readAll_of_not_inChunks {fileLen : Nat} (hfits : chunkCount fileLen * chunkSize < 2 ^ 64)
    {reads : List Read} (hends : ∀ stretch ∈ file.stretches reads, stretch.1 + stretch.2 < 2 ^ 64)
    (hin : ¬ ∀ stretch ∈ file.stretches reads, InChunks fileLen stretch)
    {s : FileReadStats} (hlen : s.uniqueChunksRead.length = chunkCount fileLen)
    (hs : CountersFit s) : readAll file s reads = .panic .chunkOutOfRange := by
  induction reads generalizing s with
  | nil => exact absurd (fun _ h => absurd h List.not_mem_nil) hin
  | cons r reads ih =>
      rw [readAll_cons]
      cases hstretch : file.stretch r with
      | none =>
          have hrest : file.stretches (r :: reads) = file.stretches reads :=
            List.filterMap_cons_none hstretch
          rw [hrest] at hin hends
          rw [Outcome.ok_bind, ih hends hin hlen hs]
          rfl
      | some stretch =>
          have hrest : file.stretches (r :: reads) = stretch :: file.stretches reads :=
            List.filterMap_cons_some hstretch
          rw [hrest, List.forall_mem_cons] at hin hends
          dsimp only
          by_cases hhead : InChunks fileLen stretch
          · rw [recordRead_of_inChunks h64 hlen hfits hs hhead, Outcome.ok_bind,
              ih hends.2 (fun h => hin ⟨hhead, h⟩) (s := (s.after stretch).wrap)
                (bits_after hlen hhead).1 (FileReadStats.countersFit_wrap _)]
            rfl
          · rw [recordRead_of_not_inChunks h64 hlen hends.1 hhead]
            rfl

theorem new_of_pos {fileLen : Nat} (hfits : chunkCount fileLen * chunkSize < 2 ^ 64)
    (hpos : 0 < fileLen) :
    (FileReadStats.new fileLen : Outcome Site Empty _) = .ok (fresh fileLen) := by
  have hcount : chunkCount fileLen < 2 ^ Target.usizeBits := by
    rw [h64]
    unfold chunkSize at hfits
    omega
  rw [FileReadStats.new, Outcome.assert, if_pos hpos, Outcome.ok_bind]
  show Outcome.ok (⟨0, List.replicate (asUsize (chunkCount fileLen)) false, 0⟩ : FileReadStats) = _
  rw [asUsize_of_lt hcount]
  rfl

omit [Target] h64 in
/-- The ones are those of the chunks touched. -/
theorem uniqueBytesRead_eq {fileLen : Nat} {T : Finset Nat} {s : FileReadStats}
    (hfits : chunkCount fileLen * chunkSize < 2 ^ 64) (hT : BitList.ones s.uniqueChunksRead = T)
    (hlen : s.uniqueChunksRead.length = chunkCount fileLen) :
    s.uniqueBytesRead = T.card * chunkSize := by
  have hcard : T.card ≤ chunkCount fileLen := by
    rw [← hT, ← hlen]
    exact BitList.card_ones_le _
  have hmul : T.card * chunkSize ≤ chunkCount fileLen * chunkSize := Nat.mul_le_mul_right _ hcard
  rw [FileReadStats.uniqueBytesRead, ← BitList.card_ones, hT, u64Mul, Nat.mod_eq_of_lt (by omega)]

/-- A life without a panic: there is a file, the calls stay in its chunks, and one of
    them reads something. -/
structure Undisturbed (file : BufferedContents) (reads : List Read) : Prop where
  len_pos : 0 < file.len
  inChunks : ∀ stretch ∈ file.stretches reads, InChunks file.len stretch
  reads_some : ∃ stretch ∈ file.stretches reads, stretch.2 ≠ 0

/-- A life that reads in the chunks is its calls' answers and its report. -/
theorem life_eq (byteSize : Nat → String) {reads : List Read}
    (hfits : chunkCount file.len * chunkSize < 2 ^ 64) (hpos : 0 < file.len)
    (hin : ∀ stretch ∈ file.stretches reads, InChunks file.len stretch) :
    life byteSize file reads
      = (afterAll (fresh file.len) (file.stretches reads)).display byteSize >>= fun report =>
          .ok (reads.map file.answer, report) := by
  have hfresh : CountersFit (fresh file.len) := ⟨Nat.two_pow_pos _, Nat.two_pow_pos _⟩
  rw [life, new_of_pos h64 hfits hpos, Outcome.ok_bind,
    readAll_of_inChunks h64 hfits hin List.length_replicate hfresh, Outcome.ok_bind]
  rfl

/-- Where a life that is not undisturbed panics. -/
def disturbance (file : BufferedContents) (reads : List Read) : Site :=
  if file.len = 0 then .emptyFile
  else if ∀ stretch ∈ file.stretches reads, InChunks file.len stretch then .nothingRead
  else .chunkOutOfRange

/-- **THE WRAPPER'S LIFE**: undisturbed, it hands on the contents' answers and reports
    at its end; otherwise it panics, in its making, in a read, or in its report. -/
theorem life_cases (byteSize : Nat → String) (file : BufferedContents) (reads : List Read)
    (hfits : chunkCount file.len * chunkSize < 2 ^ 64)
    (hends : ∀ stretch ∈ file.stretches reads, stretch.1 + stretch.2 < 2 ^ 64) :
    (Undisturbed file reads →
      ∃ report, life byteSize file reads = .ok (reads.map file.answer, report)) ∧
    (¬ Undisturbed file reads → life byteSize file reads = .panic (disturbance file reads)) := by
  have hreport : 0 < file.len → (∀ stretch ∈ file.stretches reads, InChunks file.len stretch) →
      (afterAll (fresh file.len) (file.stretches reads)).uniqueBytesRead
        = (touched (file.stretches reads)).card * chunkSize := by
    intro hpos hin
    have hones := bits_afterAll hin (s := fresh file.len) List.length_replicate
    rw [(accounts_fresh file.len).ones, Finset.empty_union] at hones
    have hlength : (afterAll (fresh file.len) (file.stretches reads)).uniqueChunksRead.length
        = chunkCount file.len := length_afterAll hin List.length_replicate
    exact uniqueBytesRead_eq hfits hones hlength
  constructor
  · rintro ⟨hpos, hin, hsome⟩
    rw [life_eq h64 byteSize hfits hpos hin, FileReadStats.display, Outcome.assert, if_pos]
    · exact ⟨_, rfl⟩
    · rw [hreport hpos hin]
      have hcard := Finset.card_pos.mpr (touched_nonempty.mpr hsome)
      exact Nat.mul_ne_zero (Nat.ne_of_gt hcard) (by decide)
  · intro hnot
    rw [disturbance]
    rcases Nat.eq_zero_or_pos file.len with hzero | hpos
    · -- an empty file has no chunks to count
      rw [if_pos hzero, life, FileReadStats.new, Outcome.assert, hzero]
      rfl
    · rw [if_neg (Nat.ne_of_gt hpos)]
      by_cases hin : ∀ stretch ∈ file.stretches reads, InChunks file.len stretch
      · -- no chunk was touched, so that the report divides by zero
        rw [if_pos hin]
        have hempty : touched (file.stretches reads) = ∅ := by
          rw [← Finset.not_nonempty_iff_eq_empty, touched_nonempty]
          exact fun hsome => hnot ⟨hpos, hin, hsome⟩
        have hzero := hreport hpos hin
        rw [hempty, Finset.card_empty, Nat.zero_mul] at hzero
        rw [life_eq h64 byteSize hfits hpos hin, FileReadStats.display, Outcome.assert,
          if_neg (not_not_intro hzero)]
        rfl
      · rw [if_neg hin]
        -- the slice of bits of some read ends behind the last chunk
        have hfresh : CountersFit (fresh file.len) := ⟨Nat.two_pow_pos _, Nat.two_pow_pos _⟩
        rw [life, new_of_pos h64 hfits hpos, Outcome.ok_bind,
          readAll_of_not_inChunks h64 hfits hends hin List.length_replicate hfresh]
        rfl

omit [Target] h64 in
/-- Two bytes that are read twice. -/
theorem undisturbed_twice : let _ : Target := ⟨64⟩
    Undisturbed (.ofBytes [1, 2]) [.bytesAt 0 2, .bytesInto 1 1] := by
  intro target
  exact ⟨by decide, by decide, (0, 2), by decide, by decide⟩

omit [Target] h64 in
theorem life_cases_twice : let _ : Target := ⟨64⟩
    ∃ report, life toString (.ofBytes [1, 2]) [.bytesAt 0 2, .bytesInto 1 1]
      = .ok ([.ok [1, 2], .ok [2]], report) := by
  intro target
  exact (life_cases rfl toString (.ofBytes [1, 2]) [.bytesAt 0 2, .bytesInto 1 1] (by decide)
    (by decide)).1 undisturbed_twice

/-- **THE REPORT**: of a file that is not too large, the unique bytes are those of the
    chunks touched, whatever the order of the calls; no fewer bytes are counted as read,
    and the redundancy is what they are more. -/
theorem life_report (byteSize : Nat → String) (file : BufferedContents) (reads : List Read)
    (hsmall : 100 * (chunkCount file.len * (chunkCount file.len * chunkSize)) < 2 ^ 64)
    (h : Undisturbed file reads) :
    let stretches := file.stretches reads
    let total := countedBytes ∅ stretches
    let unique := (touched stretches).card * chunkSize
    let calls := countedCalls ∅ stretches
    unique ≤ total ∧ total ≤ calls * (chunkCount file.len * chunkSize) ∧
      calls ≤ (touched stretches).card ∧
      life byteSize file reads = .ok (reads.map file.answer,
        byteSize total ++ " total, " ++ byteSize unique ++ " unique, "
          ++ toString ((total - unique) * 100 / unique) ++ "% redundancy, " ++ toString calls
          ++ " reads total") := by
  intro stretches total unique calls
  have hfits : chunkCount file.len * chunkSize < 2 ^ 64 := by
    have : chunkCount file.len * chunkSize
        ≤ chunkCount file.len * (chunkCount file.len * chunkSize) :=
      Nat.le_mul_of_pos_left _ (Nat.succ_pos _)
    omega
  have hfresh := accounts_fresh file.len
  have haccounts := hfresh.afterAll (by omega) h.inChunks
  obtain ⟨htotal, hcalls⟩ := hfresh.counters_afterAll (by omega) h.inChunks
  rw [Finset.empty_union] at haccounts
  have htotal : (afterAll (fresh file.len) stretches).bytesRead = total :=
    htotal.trans (Nat.zero_add _)
  have hcalls : (afterAll (fresh file.len) stretches).readCallCount = calls :=
    hcalls.trans (Nat.zero_add _)
  have hunique : (afterAll (fresh file.len) stretches).uniqueBytesRead = unique :=
    uniqueBytesRead_eq hfits haccounts.ones haccounts.length
  have hle : unique ≤ total := htotal ▸ haccounts.unique_le
  have hfew : calls ≤ (touched stretches).card := hcalls ▸ haccounts.calls_le
  have hbytes : total ≤ calls * (chunkCount file.len * chunkSize) := by
    rw [← htotal, ← hcalls]
    exact haccounts.bytes_le
  refine ⟨hle, hbytes, hfew, ?_⟩
  -- the percentage is taken of a number that is not zero, and nothing wraps
  have hne : unique ≠ 0 := by
    have hcard := Finset.card_pos.mpr (touched_nonempty.mpr h.reads_some)
    exact Nat.mul_ne_zero (Nat.ne_of_gt hcard) (by decide)
  have hbound : total ≤ chunkCount file.len * (chunkCount file.len * chunkSize) :=
    hbytes.trans (Nat.mul_le_mul_right _ (hfew.trans haccounts.card_le))
  rw [life_eq h64 byteSize hfits h.len_pos h.inChunks, FileReadStats.display, hunique, htotal,
    hcalls, Outcome.assert, if_pos hne, u64Sub_of_le hle (by omega), u64Mul,
    Nat.mod_eq_of_lt (by omega)]
  rfl

/-- Two chunks of zeros. -/
def twoChunks : BufferedContents where
  len := 65536
  readBytesAt _ size := .ok (List.replicate size 0)
  readBytesAtUntil _ _ := .ok []
  readBytesInto _ size := .ok (List.replicate size 0)

omit [Target] h64 in
/-- A read of the first chunk, and one from its end into the second chunk. -/
theorem life_report_twice : let _ : Target := ⟨64⟩
    let reads : List Read := [.bytesAt 0 2, .bytesInto 32000 1000]
    life toString twoChunks reads = .ok (reads.map twoChunks.answer,
      "66304 total, 65536 unique, 1% redundancy, 2 reads total") := by
  intro target reads
  have hundisturbed : Undisturbed twoChunks reads :=
    ⟨by decide, by decide, (0, 2), by decide, by decide⟩
  obtain ⟨-, -, -, hlife⟩ := life_report rfl toString twoChunks reads (by decide) hundisturbed
  have hnumbers : countedBytes ∅ (twoChunks.stretches reads) = 66304 ∧
      (touched (twoChunks.stretches reads)).card * chunkSize = 65536 ∧
      countedCalls ∅ (twoChunks.stretches reads) = 2 := by decide
  rw [hlife, hnumbers.1, hnumbers.2.1, hnumbers.2.2]
  refine congrArg (fun report => Outcome.ok (reads.map twoChunks.answer, report)) ?_
  decide

end Life

end ProfilerGetSymbols.ReadStats
