import ProfilerGetSymbols.Basic
import ProfilerGetSymbols.ProgLib.RangeMap

/-! # The buffer manager — which buffer holds a byte of the file

    `ChunkedReadBufferManager` decides for a requested range whether one of the
    buffers read so far contains it, or else which (rounded) range to read.  It
    remembers every buffer's range in a vector and the newest buffer over every
    offset in a range map.

    `Pieces` is the invariant of the range map: a piece only ever names a buffer
    whose range contains it.  With it an answer `InExistingBuffer` is a location
    inside the named buffer, and an answer `NeedToReadNewBuffer` is a range
    around the requested one. -/

namespace ProfilerGetSymbols.ChunkedReadBufferManager

open ProgLib

variable {M : Type} [RangeMap M Nat] {ε : Type}

/-- Where the bytes of a range are: a part of a buffer. -/
structure RangeLocation where
  bufferHandle : Nat
  offsetFromStart : Nat
  size : Nat
  deriving DecidableEq, Repr

/-- The manager's answer: a part of an existing buffer, or a range to read. -/
inductive RangeSourcing where
  | inExistingBuffer (location : RangeLocation)
  | needToReadNewBuffer (readRange : ByteRange)
  deriving DecidableEq, Repr

structure BufferRange where
  range : ByteRange
  bufferHandle : Nat
  deriving DecidableEq, Repr

/-- The manager: the file's length, the buffers' ranges, the newest buffer
    over every offset. -/
structure Manager (M : Type) where
  fileLen : Nat
  bufferRanges : List BufferRange
  rangeMap : M

def roundDownToMultiple (value factor : Nat) : Nat := value / factor * factor

def roundUpToMultiple (value factor : Nat) : Nat :=
  u64Sub (u64Add value factor) 1 / factor * factor

def newWithSize (fileLen : Nat) : Manager M := ⟨fileLen, [], RangeMap.empty⟩

/-- The range to read around `range`.  A start that some buffer already covers
    is not rounded down. -/
def readRangeFor (chunkSize fileLen : Nat) (startIsCached : Bool) (range : ByteRange) :
    ByteRange :=
  let start := if startIsCached then range.start
    else roundDownToMultiple range.start chunkSize
  ⟨start, min (roundUpToMultiple range.stop chunkSize) fileLen⟩

/-- The location of `range` in a buffer that starts at file offset `bufferStart`. -/
def locationIn [Target] (bufferHandle bufferStart : Nat) (range : ByteRange) : RangeLocation where
  bufferHandle := bufferHandle
  offsetFromStart := asUsize (u64Sub range.start bufferStart)
  size := asUsize (u64Sub range.stop range.start)

def determineRangeSourcing [Target] (chunkSize : Nat) (m : Manager M) (range : ByteRange) :
    Call ε RangeSourcing := do
  Outcome.assert .emptyRange (range.start < range.stop)
  Outcome.assert .rangeBeyondFile (range.stop ≤ m.fileLen)
  match RangeMap.get m.rangeMap range.start with
  | some bufferRangeIndex =>
      let bufferRange ← Outcome.unwrap .indexOutOfBounds m.bufferRanges[bufferRangeIndex]?
      if range.stop ≤ bufferRange.range.stop then
        return .inExistingBuffer
          (locationIn bufferRange.bufferHandle bufferRange.range.start range)
      else
        return .needToReadNewBuffer (readRangeFor chunkSize m.fileLen true range)
  | none =>
      return .needToReadNewBuffer (readRangeFor chunkSize m.fileLen false range)

/-- Record a buffer.  `RangeMap::insert` panics on an empty range. -/
def insertBufferRange (m : Manager M) (range : ByteRange) (bufferHandle : Nat) :
    Call ε (Manager M) := do
  let index := m.bufferRanges.length
  let bufferRanges := m.bufferRanges ++ [⟨range, bufferHandle⟩]
  Outcome.assert .emptyRangeInsert (range.start < range.stop)
  return { m with
    bufferRanges := bufferRanges
    rangeMap := RangeMap.insert m.rangeMap range.start range.stop index }

/-! ## Rounding -/

theorem roundDownToMultiple_le (value factor : Nat) :
    roundDownToMultiple value factor ≤ value := Nat.div_mul_le_self value factor

/-- Rounding up does not go below the value, as long as the sum fits. -/
theorem le_roundUpToMultiple (value : Nat) {factor : Nat} (hf : 0 < factor)
    (hfit : value + (factor - 1) < 2 ^ 64) : value ≤ roundUpToMultiple value factor := by
  have hsum : u64Sub (u64Add value factor) 1 = value + (factor - 1) := by
    by_cases hlt : value + factor < 2 ^ 64
    · rw [u64Add_of_lt hlt, u64Sub_of_le (by omega) hlt]
      omega
    · -- the sum is exactly 2 ^ 64: it wraps to 0 and the decrement wraps back
      have heq : value + factor = 2 ^ 64 := by omega
      rw [show value + (factor - 1) = 2 ^ 64 - 1 by omega]
      simp [u64Add, u64Sub, heq]
  unfold roundUpToMultiple
  rw [hsum]
  have hmod := Nat.mod_add_div (value + (factor - 1)) factor
  have hlt := Nat.mod_lt (value + (factor - 1)) hf
  rw [Nat.mul_comm] at hmod
  omega

/-- The range to read contains the requested one and stays inside the file. -/
theorem readRangeFor_covers (chunkSize fileLen : Nat) (hc : 0 < chunkSize) (cached : Bool)
    (range : ByteRange) (hfit : range.stop + (chunkSize - 1) < 2 ^ 64)
    (hend : range.stop ≤ fileLen) :
    (readRangeFor chunkSize fileLen cached range).start ≤ range.start ∧
      range.stop ≤ (readRangeFor chunkSize fileLen cached range).stop ∧
      (readRangeFor chunkSize fileLen cached range).stop ≤ fileLen := by
  refine ⟨?_, ?_, Nat.min_le_right _ _⟩
  · unfold readRangeFor
    cases cached with
    | true => exact Nat.le_refl _
    | false => exact roundDownToMultiple_le _ _
  · exact Nat.le_min.mpr ⟨le_roundUpToMultiple range.stop hc hfit, hend⟩

/-! ## The invariant -/

/-- Every piece of the range map names a buffer that covers it. -/
def Pieces (m : Manager M) : Prop :=
  ∀ k i, RangeMap.get m.rangeMap k = some i →
    ∃ b, m.bufferRanges[i]? = some b ∧ b.range.start ≤ k ∧ k < b.range.stop

theorem pieces_newWithSize [LawfulRangeMap M] (fileLen : Nat) :
    Pieces (newWithSize fileLen : Manager M) := by
  intro k i h
  rw [show RangeMap.get (newWithSize fileLen : Manager M).rangeMap k = none
    from LawfulRangeMap.get_empty k] at h
  cases h

/-- The manager with one buffer more. -/
def withBuffer (m : Manager M) (range : ByteRange) (bufferHandle : Nat) : Manager M :=
  { m with
    bufferRanges := m.bufferRanges ++ [⟨range, bufferHandle⟩]
    rangeMap := RangeMap.insert m.rangeMap range.start range.stop m.bufferRanges.length }

/-- Recording a range that is not empty. -/
theorem insertBufferRange_eq (m : Manager M) {range : ByteRange} (handle : Nat)
    (hne : range.start < range.stop) :
    (insertBufferRange m range handle : Call ε (Manager M)) = .ok (withBuffer m range handle) := by
  simp [insertBufferRange, withBuffer, Outcome.assert, hne]

/-- The buffers recorded before keep their places. -/
theorem getElem?_withBuffer_of_some {m : Manager M} {range : ByteRange} {handle i : Nat}
    {b : BufferRange} (h : m.bufferRanges[i]? = some b) :
    (withBuffer m range handle).bufferRanges[i]? = some b := by
  show (m.bufferRanges ++ [_])[i]? = some b
  rw [List.getElem?_append_left (List.getElem?_eq_some_iff.mp h).1]
  exact h

/-- The new buffer has the next place. -/
theorem getElem?_withBuffer_length (m : Manager M) (range : ByteRange) (handle : Nat) :
    (withBuffer m range handle).bufferRanges[m.bufferRanges.length]? = some ⟨range, handle⟩ := by
  show (m.bufferRanges ++ [_])[m.bufferRanges.length]? = _
  simp

/-- A buffer is the new one in the next place, or an old one. -/
theorem getElem?_withBuffer_cases {m : Manager M} {range : ByteRange} {handle i : Nat}
    {b : BufferRange} (h : (withBuffer m range handle).bufferRanges[i]? = some b) :
    (i = m.bufferRanges.length ∧ b = ⟨range, handle⟩) ∨ m.bufferRanges[i]? = some b := by
  by_cases hi : i < m.bufferRanges.length
  · exact Or.inr ((List.getElem?_append_left hi).symm.trans h)
  · obtain ⟨hlast, -⟩ := List.getElem?_eq_some_iff.mp h
    have hi' : i = m.bufferRanges.length := by
      simp only [withBuffer, List.length_append, List.length_singleton] at hlast
      omega
    rw [hi', getElem?_withBuffer_length, Option.some.injEq] at h
    exact Or.inl ⟨hi', h.symm⟩

/-- Recording a buffer keeps the invariant. -/
theorem Pieces.withBuffer [LawfulRangeMap M] {m : Manager M} (hp : Pieces m) (range : ByteRange)
    (handle : Nat) : Pieces (withBuffer m range handle) := by
  intro k i h
  rcases RangeMap.get_insert_cases h with ⟨rfl, hlo, hhi⟩ | hold
  · exact ⟨⟨range, handle⟩, getElem?_withBuffer_length m range handle, hlo, hhi⟩
  · obtain ⟨b, hb, hlo, hhi⟩ := hp k i hold
    exact ⟨b, getElem?_withBuffer_of_some hb, hlo, hhi⟩

/-- **THE ANSWERS**: on a non-empty range inside the file the manager answers,
    with a buffer that contains the range or with a range to read around it. -/
theorem determineRangeSourcing_cases [Target] (ε : Type) (chunkSize : Nat) {m : Manager M} {range : ByteRange}
    (hp : Pieces m) (hne : range.start < range.stop) (hend : range.stop ≤ m.fileLen) :
    (∃ (i : Nat) (b : BufferRange), m.bufferRanges[i]? = some b ∧ b.range.start ≤ range.start ∧
      range.stop ≤ b.range.stop ∧
      (determineRangeSourcing chunkSize m range : Call ε RangeSourcing)
        = .ok (.inExistingBuffer (locationIn b.bufferHandle b.range.start range))) ∨
    (∃ cached, (determineRangeSourcing chunkSize m range : Call ε RangeSourcing)
      = .ok (.needToReadNewBuffer (readRangeFor chunkSize m.fileLen cached range))) := by
  have hassert1 : (Outcome.assert .emptyRange (range.start < range.stop) : Call ε Unit)
      = .ok () := if_pos hne
  have hassert2 : (Outcome.assert .rangeBeyondFile (range.stop ≤ m.fileLen) : Call ε Unit)
      = .ok () := if_pos hend
  unfold determineRangeSourcing
  rw [hassert1, hassert2]
  simp only [Outcome.ok_bind]
  cases hget : RangeMap.get m.rangeMap range.start with
  | none => exact Or.inr ⟨false, rfl⟩
  | some i =>
      obtain ⟨b, hb, hlo, hhi⟩ := hp _ _ hget
      simp only [hb, Outcome.unwrap, Outcome.ok_bind]
      by_cases hfits : range.stop ≤ b.range.stop
      · rw [if_pos hfits]
        exact Or.inl ⟨i, b, hb, hlo, hfits, rfl⟩
      · rw [if_neg hfits]
        exact Or.inr ⟨true, rfl⟩

end ProfilerGetSymbols.ChunkedReadBufferManager
