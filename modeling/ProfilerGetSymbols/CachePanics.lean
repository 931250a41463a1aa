import ProfilerGetSymbols.Cache
import ProfilerGetSymbols.BufferReuse
import ProfilerGetSymbols.ProgLib.Machine

/-! # Panics of the chunked cache — which calls return

    A build with overflow checks panics where a `u64` result is out of range.
    The methods of `Checked` are the cache's methods in such a build: the same
    text with checked sums, differences and products.

    `Guarded` is what a call has to bring along to return.  The range that is
    looked up is not empty, and where it is not in the newest buffer over its
    start it ends a whole chunk below `2 ^ 64`.  A guarded call does exactly what
    it does without the checks, and keeps `Sized`, the lengths of all buffers and
    strings; any other call panics. -/

namespace ProfilerGetSymbols.Cache

open ProgLib ChunkedReadBufferManager

variable [Target] {M : Type} [RangeMap M Nat] {E ε : Type}

/-! ## The methods with overflow checks -/

namespace Checked

/-- `a + b` on `u64`. -/
def add (a b : Nat) : Call ε Nat := do
  Outcome.assert .arithmeticOverflow (a + b < 2 ^ 64)
  return a + b

/-- `a - b` on `u64`. -/
def sub (a b : Nat) : Call ε Nat := do
  Outcome.assert .arithmeticOverflow (b ≤ a)
  return a - b

/-- `a * b` on `u64`. -/
def mul (a b : Nat) : Call ε Nat := do
  Outcome.assert .arithmeticOverflow (a * b < 2 ^ 64)
  return a * b

def roundDownToMultiple (value factor : Nat) : Call ε Nat := mul (value / factor) factor

def roundUpToMultiple (value factor : Nat) : Call ε Nat := do
  let sum ← add value factor
  let last ← sub sum 1
  mul (last / factor) factor

def readRangeFor (chunkSize fileLen : Nat) (startIsCached : Bool) (range : ByteRange) :
    Call ε ByteRange := do
  let start ← if startIsCached then pure range.start
    else roundDownToMultiple range.start chunkSize
  let stop ← roundUpToMultiple range.stop chunkSize
  return ⟨start, min stop fileLen⟩

def locationIn (bufferHandle bufferStart : Nat) (range : ByteRange) : Call ε RangeLocation := do
  let offsetFromStart ← sub range.start bufferStart
  let size ← sub range.stop range.start
  return ⟨bufferHandle, asUsize offsetFromStart, asUsize size⟩

def determineRangeSourcing (chunkSize : Nat) (m : Manager M) (range : ByteRange) :
    Call ε RangeSourcing := do
  Outcome.assert .emptyRange (range.start < range.stop)
  Outcome.assert .rangeBeyondFile (range.stop ≤ m.fileLen)
  match RangeMap.get m.rangeMap range.start with
  | some bufferRangeIndex =>
      let bufferRange ← Outcome.unwrap .indexOutOfBounds m.bufferRanges[bufferRangeIndex]?
      if range.stop ≤ bufferRange.range.stop then
        let location ← locationIn bufferRange.bufferHandle bufferRange.range.start range
        return .inExistingBuffer location
      else
        let readRange ← readRangeFor chunkSize m.fileLen true range
        return .needToReadNewBuffer readRange
  | none =>
      let readRange ← readRangeFor chunkSize m.fileLen false range
      return .needToReadNewBuffer readRange

def getRangeLocation (source : FileByteSource E) (range : ByteRange) :
    Method M E RangeLocation := do
  let c ← Stateful.get
  match ← Stateful.lift (determineRangeSourcing chunkSize c.bufferManager range) with
  | .inExistingBuffer l => return l
  | .needToReadNewBuffer readRange =>
      Stateful.lift (Outcome.assert .invertedReadRange (readRange.start ≤ readRange.stop))
      -- Read the bytes from the source.
      let width ← Stateful.lift (sub readRange.stop readRange.start)
      let readLen ← Stateful.lift (tryIntoUsize width)
      let buffer ← Stateful.lift (readBytesInto source readRange.start readLen)
      Stateful.lift (Outcome.assert .wrongReadLength (buffer.length = readLen))
      let bufferHandle := c.buffers.length
      Stateful.set { c with buffers := c.buffers ++ [buffer] }
      let bufferManager ← Stateful.lift
        (insertBufferRange c.bufferManager readRange bufferHandle)
      Stateful.set { c with buffers := c.buffers ++ [buffer], bufferManager := bufferManager }
      Stateful.lift (locationIn bufferHandle readRange.start range)

def readBytesAt (source : FileByteSource E) (offset size : Nat) : Method M E Bytes := do
  if size = 0 then
    return []
  else
    let c ← Stateful.get
    if 2 ^ 64 ≤ offset + size then
      Stateful.lift (.err (.invalidInput "read_bytes_at with offset + size overflowing u64"))
    else if c.fileLen < offset + size then
      Stateful.lift (.err (.invalidInput "read_bytes_at range out-of-bounds"))
    else
      let location ← getRangeLocation source ⟨offset, offset + size⟩
      let c ← Stateful.get
      Stateful.lift (sliceFromLocation c location)

def readBytesAtUntil (source : FileByteSource E) (range : ByteRange) (delimiter : UInt8) :
    Method M E Bytes := do
  let c ← Stateful.get
  if range.stop < range.start then
    Stateful.lift (.err
      (.invalidInput "read_bytes_at_until called with range.end < range.start"))
  else if c.fileLen < range.stop then
    Stateful.lift (.err (.invalidInput "read_bytes_at_until range out-of-bounds"))
  else
    match c.stringCache.get? (range.start, delimiter) with
    | some location => Stateful.lift (sliceFromLocation c location)
    | none =>
        let len ← Stateful.lift (sub range.stop range.start)
        let maxLen := min len maxLengthIncludingDelimiter
        let stop ← Stateful.lift (add range.start maxLen)
        let location ← getRangeLocation source ⟨range.start, stop⟩
        let c ← Stateful.get
        let bytes ← Stateful.lift (sliceFromLocation c location)
        match memchr delimiter bytes with
        | none => Stateful.lift (.err (.invalidInput "Could not find delimiter"))
        | some stringLen =>
            Stateful.set { c with
              stringCache := c.stringCache.insert (range.start, delimiter)
                { location with size := stringLen } }
            return slice bytes 0 stringLen

/-- A call of one of the two methods. -/
def method (call : CacheCall E) : Method M E Bytes :=
  match call.request with
  | .readBytesAt offset size => readBytesAt call.source offset size
  | .readBytesAtUntil range delimiter => readBytesAtUntil call.source range delimiter

end Checked

/-! ## What a call returns, and when -/

/-- A source that appends as many bytes as it was asked for, or fails. -/
def KeepsLength (source : FileByteSource E) : Prop :=
  ∀ offset size bytes, source offset size = .ok bytes → bytes.length = size

/-- The call answers or fails, without a panic. -/
def Returns {α : Type} (answer : Call ε α) : Prop :=
  (∃ value, answer = .ok value) ∨ ∃ e, answer = .err e

/-- The newest buffer over the start holds the range, or a chunk fits on top of it. -/
def Locatable (m : Manager M) (range : ByteRange) : Prop :=
  HeldByNewest m range ∨ range.stop + chunkSize < 2 ^ 64

/-- What a call has to bring along to return. -/
def Guarded (c : FileContentsWithChunkedCaching M) (call : CacheCall E) : Prop :=
  match call.request with
  | .readBytesAt offset size =>
      0 < size → offset + size ≤ c.fileLen → Locatable c.bufferManager ⟨offset, offset + size⟩
  | .readBytesAtUntil range delimiter =>
      range.start ≤ range.stop → range.stop ≤ c.fileLen →
      c.stringCache.get? (range.start, delimiter) = none →
      range.start < range.stop ∧
        Locatable c.bufferManager ⟨range.start, range.start + searchLen range⟩

/-! ## The invariant -/

/-- A location inside a buffer. -/
def InBounds (buffers : List Bytes) (location : RangeLocation) : Prop :=
  ∃ buffer, buffers[location.bufferHandle]? = some buffer ∧
    location.offsetFromStart + location.size ≤ buffer.length

/-- **THE INVARIANT**: every buffer is as long as its range, which lies in the
    file, and every cached string lies in its buffer. -/
structure Sized (c : FileContentsWithChunkedCaching M) : Prop where
  fileLen : c.fileLen < 2 ^ 64
  managerLen : c.bufferManager.fileLen = c.fileLen
  pieces : Pieces c.bufferManager
  handles : c.bufferManager.bufferRanges.length = c.buffers.length
  buffer : ∀ (i : Nat) (b : BufferRange), c.bufferManager.bufferRanges[i]? = some b →
    b.bufferHandle = i ∧ b.range.stop ≤ c.fileLen ∧
    b.range.stop - b.range.start < 2 ^ Target.usizeBits ∧
    ∃ buffer, c.buffers[i]? = some buffer ∧ buffer.length = b.range.stop - b.range.start
  strings : ∀ key location, c.stringCache.get? key = some location → InBounds c.buffers location

omit [Target] in
theorem InBounds.append {buffers : List Bytes} {location : RangeLocation}
    (h : InBounds buffers location) (more : List Bytes) : InBounds (buffers ++ more) location := by
  obtain ⟨buffer, hget, hle⟩ := h
  have hlt : location.bufferHandle < buffers.length := (List.getElem?_eq_some_iff.mp hget).1
  exact ⟨buffer, by rw [List.getElem?_append_left hlt]; exact hget, hle⟩

omit [Target] [RangeMap M Nat] in
/-- A location inside a buffer is sliced without a panic. -/
theorem sliceFromLocation_of_inBounds {c : FileContentsWithChunkedCaching M}
    {location : RangeLocation} (h : InBounds c.buffers location) :
    ∃ bytes, (sliceFromLocation c location : Call (CacheError E) Bytes) = .ok bytes ∧
      bytes.length = location.size := by
  obtain ⟨buffer, hget, hle⟩ := h
  refine ⟨_, sliceFromLocation_of_holds ⟨buffer, hget, hle, rfl⟩, ?_⟩
  rw [length_slice hle]
  omega

theorem sized_new [LawfulRangeMap M] {fileLen : Nat} (h : fileLen < 2 ^ 64) :
    Sized (new fileLen : FileContentsWithChunkedCaching M) where
  fileLen := h
  managerLen := rfl
  pieces := pieces_newWithSize fileLen
  handles := rfl
  buffer := by
    intro i b hb
    exact absurd hb (by simp [new, newWithSize])
  strings := by
    intro key location hget
    exact absurd hget (by simp [new])

/-- A part of a buffer that is as long as its range. -/
theorem inBounds_locationIn {buffers : List Bytes} {handle : Nat} {buffer : Bytes}
    {bufferRange range : ByteRange} (hget : buffers[handle]? = some buffer)
    (hlen : buffer.length = bufferRange.stop - bufferRange.start)
    (h64 : bufferRange.stop < 2 ^ 64)
    (hwidth : bufferRange.stop - bufferRange.start < 2 ^ Target.usizeBits)
    (hlo : bufferRange.start ≤ range.start) (hne : range.start < range.stop)
    (hhi : range.stop ≤ bufferRange.stop) :
    InBounds buffers (locationIn handle bufferRange.start range) ∧
      (locationIn handle bufferRange.start range).size = range.stop - range.start := by
  rw [locationIn_exact h64 hwidth hlo hne hhi]
  refine ⟨⟨buffer, hget, ?_⟩, rfl⟩
  dsimp only
  omega

/-- A buffer as long as its range keeps the invariant. -/
theorem Sized.withRead [LawfulRangeMap M] {c : FileContentsWithChunkedCaching M} (hc : Sized c)
    {readRange : ByteRange} (hend : readRange.stop ≤ c.fileLen)
    (hwidth : readRange.stop - readRange.start < 2 ^ Target.usizeBits) {buffer : Bytes}
    (hlen : buffer.length = readRange.stop - readRange.start) :
    Sized (withRead c readRange buffer) where
  fileLen := hc.fileLen
  managerLen := hc.managerLen
  pieces := hc.pieces.withBuffer readRange c.buffers.length
  handles := handles_withRead hc.handles _ _
  buffer := by
    intro i b hb
    rcases getElem?_withBuffer_cases hb with ⟨hi, rfl⟩ | hold
    · refine ⟨by rw [hi, hc.handles], hend, hwidth, buffer, ?_, hlen⟩
      rw [hi, hc.handles]
      exact getElem?_withRead_new c _ _
    · obtain ⟨h1, h2, h3, old, h4, h5⟩ := hc.buffer i b hold
      exact ⟨h1, h2, h3, old, getElem?_withRead_old h4 _ _, h5⟩
  strings := fun key location h => (hc.strings key location h).append _

/-! ## The checks -/

namespace Checked

omit [Target] in
theorem add_of_lt {a b : Nat} (h : a + b < 2 ^ 64) : (add a b : Call ε Nat) = .ok (a + b) := by
  rw [add, show (Outcome.assert .arithmeticOverflow (a + b < 2 ^ 64) : Call ε Unit) = .ok ()
    from if_pos h]
  rfl

omit [Target] in
theorem add_of_le {a b : Nat} (h : 2 ^ 64 ≤ a + b) :
    (add a b : Call ε Nat) = .panic .arithmeticOverflow := by
  rw [add, show (Outcome.assert .arithmeticOverflow (a + b < 2 ^ 64) : Call ε Unit)
    = .panic .arithmeticOverflow from if_neg (by omega)]
  rfl

omit [Target] in
theorem sub_of_le {a b : Nat} (h : b ≤ a) : (sub a b : Call ε Nat) = .ok (a - b) := by
  rw [sub, show (Outcome.assert .arithmeticOverflow (b ≤ a) : Call ε Unit) = .ok ()
    from if_pos h]
  rfl

omit [Target] in
theorem mul_of_lt {a b : Nat} (h : a * b < 2 ^ 64) : (mul a b : Call ε Nat) = .ok (a * b) := by
  rw [mul, show (Outcome.assert .arithmeticOverflow (a * b < 2 ^ 64) : Call ε Unit) = .ok ()
    from if_pos h]
  rfl

omit [Target] in
theorem roundDownToMultiple_eq {value : Nat} (factor : Nat) (h : value < 2 ^ 64) :
    (roundDownToMultiple value factor : Call ε Nat)
      = .ok (ChunkedReadBufferManager.roundDownToMultiple value factor) :=
  mul_of_lt (Nat.lt_of_le_of_lt (Nat.div_mul_le_self value factor) h)

omit [Target] in
theorem roundUpToMultiple_eq {value factor : Nat} (hf : 0 < factor)
    (h : value + factor < 2 ^ 64) :
    (roundUpToMultiple value factor : Call ε Nat)
      = .ok (ChunkedReadBufferManager.roundUpToMultiple value factor) := by
  have hmul : (value + factor - 1) / factor * factor < 2 ^ 64 :=
    Nat.lt_of_le_of_lt (Nat.div_mul_le_self _ factor) (by omega)
  rw [roundUpToMultiple, add_of_lt h, Outcome.ok_bind, sub_of_le (by omega), Outcome.ok_bind,
    mul_of_lt hmul, ChunkedReadBufferManager.roundUpToMultiple, u64Add_of_lt h,
    u64Sub_of_le (by omega) h]

omit [Target] in
/-- The range to read is the same one where a chunk fits on top of the request. -/
theorem readRangeFor_eq {chunkSize : Nat} (hf : 0 < chunkSize) (fileLen : Nat) (cached : Bool)
    {range : ByteRange} (hle : range.start ≤ range.stop)
    (h : range.stop + chunkSize < 2 ^ 64) :
    (readRangeFor chunkSize fileLen cached range : Call ε ByteRange)
      = .ok (ChunkedReadBufferManager.readRangeFor chunkSize fileLen cached range) := by
  rw [readRangeFor]
  cases cached with
  | true =>
      rw [if_pos rfl, Outcome.pure_eq_ok, Outcome.ok_bind, roundUpToMultiple_eq hf h]
      rfl
  | false =>
      rw [if_neg (by decide), roundDownToMultiple_eq chunkSize (by omega), Outcome.ok_bind,
        roundUpToMultiple_eq hf h]
      rfl

omit [Target] in
/-- Otherwise the sum in the rounding overflows. -/
theorem readRangeFor_overflow {chunkSize : Nat} (fileLen : Nat) (cached : Bool)
    {range : ByteRange} (hstart : range.start < 2 ^ 64)
    (h : 2 ^ 64 ≤ range.stop + chunkSize) :
    (readRangeFor chunkSize fileLen cached range : Call ε ByteRange)
      = .panic .arithmeticOverflow := by
  have hup : (roundUpToMultiple range.stop chunkSize : Call ε Nat)
      = .panic .arithmeticOverflow := by
    rw [roundUpToMultiple, add_of_le h]
    rfl
  rw [readRangeFor, hup]
  cases cached with
  | true => rfl
  | false =>
      rw [if_neg (by decide), roundDownToMultiple_eq chunkSize hstart]
      rfl

theorem locationIn_eq (bufferHandle : Nat) {bufferStart : Nat} {range : ByteRange}
    (hlo : bufferStart ≤ range.start) (hle : range.start ≤ range.stop)
    (h64 : range.stop < 2 ^ 64) :
    (locationIn bufferHandle bufferStart range : Call ε RangeLocation)
      = .ok (ChunkedReadBufferManager.locationIn bufferHandle bufferStart range) := by
  rw [locationIn, sub_of_le hlo, Outcome.ok_bind, sub_of_le hle, Outcome.ok_bind,
    ChunkedReadBufferManager.locationIn, u64Sub_of_le hlo (by omega), u64Sub_of_le hle h64]
  rfl

/-- **THE MANAGER, CHECKED**: a range that can be located gets the same answer as
    without the checks, any other one overflows. -/
theorem determineRangeSourcing_eq {chunkSize : Nat} (hf : chunkSize = Cache.chunkSize)
    {m : Manager M} (hp : Pieces m) {range : ByteRange} (hne : range.start < range.stop)
    (hend : range.stop ≤ m.fileLen) (h64 : m.fileLen < 2 ^ 64) :
    (Locatable m range → (determineRangeSourcing chunkSize m range : Call ε RangeSourcing)
      = ChunkedReadBufferManager.determineRangeSourcing chunkSize m range) ∧
    (¬ Locatable m range → (determineRangeSourcing chunkSize m range : Call ε RangeSourcing)
      = .panic .arithmeticOverflow) := by
  subst hf
  have hassert1 : (Outcome.assert .emptyRange (range.start < range.stop) : Call ε Unit)
      = .ok () := if_pos hne
  have hassert2 : (Outcome.assert .rangeBeyondFile (range.stop ≤ m.fileLen) : Call ε Unit)
      = .ok () := if_pos hend
  have hpos : 0 < chunkSize := by decide
  rw [determineRangeSourcing, ChunkedReadBufferManager.determineRangeSourcing, hassert1, hassert2]
  simp only [Outcome.ok_bind]
  -- what is not in the newest buffer over its start is read
  have hread : ∀ cached, ¬ HeldByNewest m range →
      (Locatable m range → (readRangeFor chunkSize m.fileLen cached range : Call ε ByteRange)
        = .ok (ChunkedReadBufferManager.readRangeFor chunkSize m.fileLen cached range)) ∧
      (¬ Locatable m range → (readRangeFor chunkSize m.fileLen cached range : Call ε ByteRange)
        = .panic .arithmeticOverflow) := by
    intro cached hheld
    constructor
    · intro hloc
      exact readRangeFor_eq hpos _ _ (Nat.le_of_lt hne) (hloc.resolve_left hheld)
    · intro hloc
      rw [Locatable, not_or] at hloc
      exact readRangeFor_overflow _ _ (by omega) (Nat.le_of_not_lt hloc.2)
  cases hget : RangeMap.get m.rangeMap range.start with
  | none =>
      obtain ⟨hyes, hno⟩ := hread false (by
        rintro ⟨i, b, hi, -⟩
        rw [hget] at hi
        cases hi)
      refine ⟨fun hloc => ?_, fun hloc => ?_⟩
      · simp only [hyes hloc, Outcome.ok_bind]
      · simp only [hno hloc, Outcome.panic_bind]
  | some i =>
      obtain ⟨b, hb, hlo, hhi⟩ := hp _ _ hget
      simp only [hb, Outcome.unwrap, Outcome.ok_bind]
      by_cases hfits : range.stop ≤ b.range.stop
      · refine ⟨fun _ => ?_, fun hloc => absurd (Or.inl ⟨i, b, hget, hb, hfits⟩) hloc⟩
        rw [if_pos hfits, if_pos hfits, locationIn_eq _ hlo (Nat.le_of_lt hne) (by omega)]
        rfl
      · obtain ⟨hyes, hno⟩ := hread true (by
          rintro ⟨i', b', hi', hb', hfits'⟩
          rw [hget, Option.some.injEq] at hi'
          rw [← hi', hb, Option.some.injEq] at hb'
          exact hfits (hb' ▸ hfits'))
        rw [if_neg hfits, if_neg hfits]
        refine ⟨fun hloc => ?_, fun hloc => ?_⟩
        · rw [hyes hloc]
          rfl
        · rw [hno hloc]
          rfl

end Checked

/-! ## One call -/

section Lookups

variable {c : FileContentsWithChunkedCaching M} {source : FileByteSource E} {range : ByteRange}

/-- A new buffer is read only where the range is not held, so its end is in bounds. -/
theorem stop_add_chunkSize_lt {m : Manager M} (hloc : Locatable m range) {readRange : ByteRange}
    (hdet : (determineRangeSourcing chunkSize m range : Call (CacheError E) RangeSourcing)
      = .ok (.needToReadNewBuffer readRange)) : range.stop + chunkSize < 2 ^ 64 := by
  rcases hloc with hheld | hfit
  · obtain ⟨-, -, ⟨-, location, heq⟩ | ⟨hnot, -⟩⟩ := determineRangeSourcing_eq_ok hdet
    · cases heq
    · exact absurd hheld hnot
  · exact hfit

/-- A range that can be located is looked up as without the checks. -/
theorem checked_getRangeLocation_eq (hc : Sized c) (hne : range.start < range.stop)
    (hend : range.stop ≤ c.fileLen) (hloc : Locatable c.bufferManager range) :
    (Checked.getRangeLocation source range).run c = (getRangeLocation source range).run c := by
  have h64 := hc.fileLen
  have hchecked := (Checked.determineRangeSourcing_eq (ε := CacheError E) rfl hc.pieces hne
    (hc.managerLen ▸ hend) (hc.managerLen ▸ h64)).1 hloc
  unfold Checked.getRangeLocation getRangeLocation
  simp only [Stateful.run_bind, Stateful.run_get, Stateful.run_lift, hchecked]
  rcases determineRangeSourcing_cases (CacheError E) chunkSize hc.pieces hne
      (hc.managerLen ▸ hend) with ⟨i, b, -, -, -, hdet⟩ | ⟨cached, hdet⟩
  · simp only [hdet]
  · simp only [hdet]
    have hfit := stop_add_chunkSize_lt hloc hdet
    have hchunk : chunkSize = 32768 := by decide
    obtain ⟨hlo, hhi, hin⟩ := readRangeFor_covers chunkSize c.bufferManager.fileLen (by decide)
      cached range (by omega) (hc.managerLen ▸ hend)
    generalize readRangeFor chunkSize c.bufferManager.fileLen cached range = readRange
      at hlo hhi
    rw [Checked.sub_of_le (show readRange.start ≤ readRange.stop by omega),
      Checked.locationIn_eq _ hlo (Nat.le_of_lt hne) (by omega)]
    simp only [Stateful.lift_ok, Stateful.pure_bind]

/-- Any other range overflows. -/
theorem checked_getRangeLocation_overflow (hc : Sized c) (hne : range.start < range.stop)
    (hend : range.stop ≤ c.fileLen) (hloc : ¬ Locatable c.bufferManager range) :
    (Checked.getRangeLocation source range).run c = (.panic .arithmeticOverflow, c) := by
  have h64 := hc.fileLen
  have hchecked := (Checked.determineRangeSourcing_eq (ε := CacheError E) rfl hc.pieces hne
    (hc.managerLen ▸ hend) (hc.managerLen ▸ h64)).2 hloc
  unfold Checked.getRangeLocation
  simp only [Stateful.run_bind, Stateful.run_get, Stateful.run_lift, hchecked]

/-- An empty range fails the manager's first assertion. -/
theorem checked_getRangeLocation_empty (hempty : ¬ range.start < range.stop) :
    (Checked.getRangeLocation source range).run c = (.panic .emptyRange, c) := by
  have hassert : (Outcome.assert .emptyRange (range.start < range.stop)
      : Call (CacheError E) Unit) = .panic .emptyRange := if_neg hempty
  unfold Checked.getRangeLocation
  simp only [Stateful.run_bind, Stateful.run_get, Stateful.run_lift,
    Checked.determineRangeSourcing, hassert, Outcome.panic_bind]

/-- **THE LOOKUP**: a range that can be located is found inside a buffer, or the
    call fails and nothing has changed. -/
theorem getRangeLocation_sized [LawfulRangeMap M] (hc : Sized c) (hsrc : KeepsLength source)
    (hne : range.start < range.stop) (hend : range.stop ≤ c.fileLen)
    (hloc : Locatable c.bufferManager range) :
    (∃ location c', (getRangeLocation source range).run c = (.ok location, c') ∧ Sized c' ∧
      InBounds c'.buffers location ∧ location.size = range.stop - range.start) ∨
    (∃ e, (getRangeLocation source range).run c = (.err e, c)) := by
  have h64 := hc.fileLen
  rcases determineRangeSourcing_cases (CacheError E) chunkSize hc.pieces hne
      (hc.managerLen ▸ hend) with ⟨i, b, hb, hlo, hhi, hdet⟩ | ⟨cached, hdet⟩
  · obtain ⟨hhandle, hbend, hwidth, buffer, hget, hlen⟩ := hc.buffer i b hb
    obtain ⟨hin, hsize⟩ := inBounds_locationIn hget hlen (by omega) hwidth hlo hne hhi
    refine Or.inl ⟨locationIn b.bufferHandle b.range.start range, c, ?_, hc, ?_, hsize⟩
    · unfold getRangeLocation
      simp only [Stateful.run_bind, Stateful.run_get, Stateful.run_lift, hdet]
      rfl
    · rw [hhandle]
      exact hin
  · have hfit := stop_add_chunkSize_lt hloc hdet
    have hchunk : chunkSize = 32768 := by decide
    obtain ⟨hlo, hhi, hin⟩ := readRangeFor_covers chunkSize c.bufferManager.fileLen (by decide)
      cached range (by omega) (hc.managerLen ▸ hend)
    rcases getRangeLocation_read_cases source (by omega) hdet with
      ⟨e, hrun, -⟩ | ⟨buffer, hwidth, hread, hrun⟩
    · exact Or.inr ⟨e, hrun⟩
    · have hlen := hsrc _ _ _ hread
      have hin' : (readRangeFor chunkSize c.bufferManager.fileLen cached range).stop ≤ c.fileLen :=
        hc.managerLen ▸ hin
      have hget : (c.buffers ++ [buffer])[c.buffers.length]? = some buffer := by simp
      obtain ⟨hinb, hsize⟩ := inBounds_locationIn hget hlen (by omega) hwidth hlo hne hhi
      exact Or.inl ⟨_, _, hrun hlen, hc.withRead (hc.managerLen ▸ hin) hwidth hlen, hinb, hsize⟩

end Lookups

/-- The checked call does what the plain one does, returns, and keeps the invariant. -/
structure Kept (checked plain : Call (CacheError E) Bytes × FileContentsWithChunkedCaching M) :
    Prop where
  unchecked : checked = plain
  returns : Returns plain.1
  sized : Sized plain.2

/-- A call that fails and changes nothing is kept. -/
theorem kept_err {c : FileContentsWithChunkedCaching M} (hc : Sized c) (e : CacheError E) :
    Kept ((.err e, c) : Call (CacheError E) Bytes × _) (.err e, c) :=
  ⟨rfl, Or.inr ⟨e, rfl⟩, hc⟩

/-- A call that answers and leaves the invariant is kept. -/
theorem kept_ok {c : FileContentsWithChunkedCaching M} (hc : Sized c) (bytes : Bytes) :
    Kept ((.ok bytes, c) : Call (CacheError E) Bytes × _) (.ok bytes, c) :=
  ⟨rfl, Or.inl ⟨bytes, rfl⟩, hc⟩

/-- `read_bytes_at` after the lookup. -/
def readOut (location : RangeLocation) : Method M E Bytes := do
  let c ← Stateful.get
  Stateful.lift (sliceFromLocation c location)

/-- `read_bytes_at_until` after the lookup. -/
def findString (start : Nat) (delimiter : UInt8) (location : RangeLocation) :
    Method M E Bytes := do
  let c ← Stateful.get
  let bytes ← Stateful.lift (sliceFromLocation c location)
  match memchr delimiter bytes with
  | none => Stateful.lift (.err (.invalidInput "Could not find delimiter"))
  | some stringLen =>
      Stateful.set { c with
        stringCache := c.stringCache.insert (start, delimiter)
          { location with size := stringLen } }
      return slice bytes 0 stringLen

section Calls

variable {c : FileContentsWithChunkedCaching M} {source : FileByteSource E} {range : ByteRange}

/-- What a lookup in bounds is followed by. -/
theorem lookup_step [LawfulRangeMap M] (rest : RangeLocation → Method M E Bytes) (hc : Sized c)
    (hsrc : KeepsLength source) (hne : range.start < range.stop) (hend : range.stop ≤ c.fileLen)
    (hrest : ∀ location c', Sized c' → InBounds c'.buffers location →
      Kept ((rest location).run c') ((rest location).run c')) :
    (Locatable c.bufferManager range →
      Kept ((Checked.getRangeLocation source range >>= rest).run c)
        ((getRangeLocation source range >>= rest).run c)) ∧
    (¬ Locatable c.bufferManager range →
      ((Checked.getRangeLocation source range >>= rest).run c).1
        = .panic .arithmeticOverflow) := by
  constructor
  · intro hloc
    rw [Stateful.run_bind, Stateful.run_bind, checked_getRangeLocation_eq hc hne hend hloc]
    rcases getRangeLocation_sized hc hsrc hne hend hloc with
      ⟨location, c', hrun, hc', hin, -⟩ | ⟨e, hrun⟩
    · rw [hrun]
      exact hrest location c' hc' hin
    · rw [hrun]
      exact kept_err hc e
  · intro hloc
    rw [Stateful.run_bind, checked_getRangeLocation_overflow hc hne hend hloc]

omit [Target] [RangeMap M Nat] in
/-- A position that `memchr` finds lies inside. -/
theorem lt_length_of_memchr {delimiter : UInt8} {bytes : Bytes} {len : Nat}
    (h : memchr delimiter bytes = some len) : len < bytes.length :=
  (List.findIdx?_eq_some_iff_getElem.mp h).1

/-- Storing the location of a string keeps the invariant. -/
theorem Sized.insertString (hc : Sized c) {location : RangeLocation}
    (hin : InBounds c.buffers location) {len : Nat} (hlen : len ≤ location.size)
    (key : Nat × UInt8) :
    Sized { c with
      stringCache := c.stringCache.insert key { location with size := len } } where
  fileLen := hc.fileLen
  managerLen := hc.managerLen
  pieces := hc.pieces
  handles := hc.handles
  buffer := hc.buffer
  strings := by
    intro key' location' h
    by_cases hkey : key = key'
    · rw [hkey, HashMap.get?_insert_self, Option.some.injEq] at h
      obtain ⟨buffer, hget, hle⟩ := hin
      rw [← h]
      refine ⟨buffer, hget, ?_⟩
      show location.offsetFromStart + len ≤ buffer.length
      omega
    · rw [HashMap.get?_insert_of_ne _ _ (by simpa using hkey)] at h
      exact hc.strings key' location' h

theorem readOut_kept (hc : Sized c) {location : RangeLocation} (hin : InBounds c.buffers location) :
    Kept ((readOut location : Method M E Bytes).run c) ((readOut location).run c) := by
  obtain ⟨bytes, hslice, -⟩ := sliceFromLocation_of_inBounds (E := E) hin
  have hrun : (readOut location : Method M E Bytes).run c = (.ok bytes, c) := by
    rw [readOut, Stateful.run_bind, Stateful.run_get]
    simp only [Stateful.run_lift, hslice]
  rw [hrun]
  exact kept_ok hc bytes

theorem findString_kept (hc : Sized c) {location : RangeLocation}
    (hin : InBounds c.buffers location) (start : Nat) (delimiter : UInt8) :
    Kept ((findString start delimiter location : Method M E Bytes).run c)
      ((findString start delimiter location).run c) := by
  obtain ⟨bytes, hslice, hlen⟩ := sliceFromLocation_of_inBounds (E := E) hin
  cases hfind : memchr delimiter bytes with
  | none =>
      have hrun : (findString start delimiter location : Method M E Bytes).run c
          = (.err (.invalidInput "Could not find delimiter"), c) := by
        rw [findString, Stateful.run_bind, Stateful.run_get]
        simp only [Stateful.run_bind, Stateful.run_lift, hslice, hfind]
      rw [hrun]
      exact kept_err hc _
  | some len =>
      have hrun : (findString start delimiter location : Method M E Bytes).run c
          = (.ok (slice bytes 0 len), { c with
              stringCache := c.stringCache.insert (start, delimiter)
                { location with size := len } }) := by
        rw [findString, Stateful.run_bind, Stateful.run_get]
        simp only [Stateful.run_bind, Stateful.run_lift, hslice, hfind, Stateful.run_set,
          Stateful.run_pure]
      have hlt := lt_length_of_memchr hfind
      rw [hrun]
      exact kept_ok (hc.insertString hin (by omega) _) _

/-- **`read_bytes_at`**: kept when guarded, a panic otherwise. -/
theorem readBytesAt_step [LawfulRangeMap M] (hc : Sized c) (hsrc : KeepsLength source)
    (offset size : Nat) :
    (Guarded c ⟨.readBytesAt offset size, source⟩ →
      Kept ((Checked.readBytesAt source offset size).run c)
        ((readBytesAt source offset size).run c)) ∧
    (¬ Guarded c ⟨.readBytesAt offset size, source⟩ →
      ∃ site, ((Checked.readBytesAt source offset size).run c).1 = .panic site) := by
  have h64 := hc.fileLen
  rw [Checked.readBytesAt, readBytesAt]
  by_cases hsize : size = 0
  · rw [if_pos hsize, if_pos hsize]
    exact ⟨fun _ => kept_ok hc [], fun hno => absurd (fun hpos _ => absurd hsize (by omega)) hno⟩
  rw [if_neg hsize, if_neg hsize, Stateful.run_bind, Stateful.run_bind, Stateful.run_get]
  by_cases hover : 2 ^ 64 ≤ offset + size
  · simp only [if_pos hover]
    exact ⟨fun _ => kept_err hc _, fun hno => absurd (fun _ hle => absurd hover (by omega)) hno⟩
  by_cases hend : c.fileLen < offset + size
  · simp only [if_neg hover, if_pos hend]
    exact ⟨fun _ => kept_err hc _, fun hno => absurd (fun _ hle => absurd hend (by omega)) hno⟩
  simp only [if_neg hover, if_neg hend]
  obtain ⟨hyes, hno⟩ := lookup_step readOut hc hsrc
    (show (⟨offset, offset + size⟩ : ByteRange).start < offset + size by
      show offset < offset + size
      omega)
    (show offset + size ≤ c.fileLen by omega)
    (fun location c' hc' hin => readOut_kept hc' hin)
  refine ⟨fun hguarded => hyes (hguarded (by omega) (by omega)), fun hguarded => ?_⟩
  exact ⟨_, hno (fun hloc => hguarded (fun _ _ => hloc))⟩

/-- **`read_bytes_at_until`**: kept when guarded, a panic otherwise. -/
theorem readBytesAtUntil_step [LawfulRangeMap M] (hc : Sized c) (hsrc : KeepsLength source)
    (delimiter : UInt8) :
    (Guarded c ⟨.readBytesAtUntil range delimiter, source⟩ →
      Kept ((Checked.readBytesAtUntil source range delimiter).run c)
        ((readBytesAtUntil source range delimiter).run c)) ∧
    (¬ Guarded c ⟨.readBytesAtUntil range delimiter, source⟩ →
      ∃ site, ((Checked.readBytesAtUntil source range delimiter).run c).1 = .panic site) := by
  have h64 := hc.fileLen
  rw [Checked.readBytesAtUntil, readBytesAtUntil, Stateful.run_bind, Stateful.run_bind,
    Stateful.run_get]
  -- an inverted range and one beyond the file are errors before anything is computed
  by_cases hinv : range.stop < range.start
  · simp only [if_pos hinv]
    exact ⟨fun _ => kept_err hc _, fun hno => absurd (fun hle => absurd hinv (by omega)) hno⟩
  by_cases hend : c.fileLen < range.stop
  · simp only [if_neg hinv, if_pos hend]
    exact ⟨fun _ => kept_err hc _, fun hno => absurd (fun _ hle => absurd hend (by omega)) hno⟩
  simp only [if_neg hinv, if_neg hend]
  cases hcached : c.stringCache.get? (range.start, delimiter) with
  | some location =>
      obtain ⟨bytes, hslice, -⟩ :=
        sliceFromLocation_of_inBounds (E := E) (hc.strings _ _ hcached)
      simp only [Stateful.run_lift, hslice]
      refine ⟨fun _ => kept_ok hc bytes, fun hno => absurd (fun _ _ hnone => ?_) hno⟩
      cases hcached.symm.trans hnone
  | none =>
      have hmax : searchLen range ≤ range.stop - range.start := Nat.min_le_left _ _
      simp only [show min (range.stop - range.start) maxLengthIncludingDelimiter
        = searchLen range from rfl, Stateful.run_bind, Stateful.run_lift,
        Checked.sub_of_le (show range.start ≤ range.stop by omega),
        Checked.add_of_lt (show range.start + searchLen range < 2 ^ 64 by omega),
        u64Add_of_lt (show range.start + searchLen range < 2 ^ 64 by omega)]
      by_cases hempty : range.start < range.stop
      · have hpos : 0 < searchLen range :=
          Nat.lt_min.mpr ⟨Nat.sub_pos_of_lt hempty, by decide⟩
        obtain ⟨hyes, hno⟩ := lookup_step (findString range.start delimiter) hc hsrc
          (show (⟨range.start, range.start + searchLen range⟩ : ByteRange).start
            < range.start + searchLen range from Nat.lt_add_of_pos_right hpos)
          (show range.start + searchLen range ≤ c.fileLen by omega)
          (fun location c' hc' hin => findString_kept hc' hin _ _)
        refine ⟨fun hguarded => hyes (hguarded (by omega) (by omega) hcached).2, fun hguarded => ?_⟩
        exact ⟨_, hno (fun hloc => hguarded (fun _ _ _ => ⟨hempty, hloc⟩))⟩
      · -- the empty range comes to the manager's assertion
        have hzero : ¬ (⟨range.start, range.start + searchLen range⟩ : ByteRange).start
            < range.start + searchLen range := by
          show ¬ range.start < range.start + searchLen range
          omega
        refine ⟨fun hguarded => absurd (hguarded (by omega) (by omega) hcached).1 hempty,
          fun _ => ⟨.emptyRange, ?_⟩⟩
        rw [checked_getRangeLocation_empty hzero]

/-- **ONE CALL** returns if and only if it is guarded, and then keeps the invariant. -/
theorem call_step [LawfulRangeMap M] (hc : Sized c) {call : CacheCall E}
    (hsrc : KeepsLength call.source) :
    (Returns ((Checked.method call).run c).1 ↔ Guarded c call) ∧
      (Guarded c call → Sized ((Checked.method call).run c).2) := by
  have hstep : (Guarded c call → Kept ((Checked.method call).run c) (call.method.run c)) ∧
      (¬ Guarded c call → ∃ site, ((Checked.method call).run c).1 = .panic site) := by
    obtain ⟨request, source⟩ := call
    cases request with
    | readBytesAt offset size => exact readBytesAt_step hc hsrc offset size
    | readBytesAtUntil range delimiter => exact readBytesAtUntil_step hc hsrc delimiter
  obtain ⟨hyes, hno⟩ := hstep
  refine ⟨⟨fun hreturns => ?_, fun hguarded => ?_⟩, fun hguarded => ?_⟩
  · by_contra hguarded
    obtain ⟨site, hpanic⟩ := hno hguarded
    rw [hpanic] at hreturns
    rcases hreturns with ⟨value, h⟩ | ⟨e, h⟩
    · cases h
    · cases h
  · have hkept := hyes hguarded
    rw [hkept.unchecked]
    exact hkept.returns
  · have hkept := hyes hguarded
    rw [hkept.unchecked]
    exact hkept.sized

end Calls

/-! ## Runs -/

/-- The state after a call. -/
def afterCall (c : FileContentsWithChunkedCaching M) (call : CacheCall E) :
    FileContentsWithChunkedCaching M :=
  ((Checked.method call).run c).2

/-- Every call of the sequence, in the state the earlier ones left, returns. -/
def NeverPanics (M : Type) [RangeMap M Nat] (fileLen : Nat) (calls : List (CacheCall E)) : Prop :=
  Along afterCall (fun c call => Returns ((Checked.method call).run c).1)
    (new fileLen : FileContentsWithChunkedCaching M) calls

/-- Every call of the sequence is guarded in the state the earlier ones left. -/
def EveryCallGuarded (M : Type) [RangeMap M Nat] (fileLen : Nat) (calls : List (CacheCall E)) :
    Prop :=
  Along afterCall Guarded (new fileLen : FileContentsWithChunkedCaching M) calls

/-- **PANICS**: no call of a sequence panics or overflows if and only if every one
    of them is guarded. -/
theorem neverPanics_iff [LawfulRangeMap M] (fileLen : Nat) (hfile : fileLen < 2 ^ 64)
    (calls : List (CacheCall E)) (hcalls : ∀ call ∈ calls, KeepsLength call.source) :
    NeverPanics M fileLen calls ↔ EveryCallGuarded M fileLen calls := by
  have hiff : ∀ c : FileContentsWithChunkedCaching M, ∀ call ∈ calls, Sized c →
      (Returns ((Checked.method call).run c).1 ↔ Guarded c call) :=
    fun c call hcall hc => (call_step hc (hcalls call hcall)).1
  have hkeep : ∀ c : FileContentsWithChunkedCaching M, ∀ call ∈ calls, Sized c →
      Guarded c call → Sized (afterCall c call) :=
    fun c call hcall hc => (call_step hc (hcalls call hcall)).2
  exact along_iff hiff hkeep (sized_new hfile)

omit [Target] in
/-- Two reads of a file of five bytes, from a source that answers with zeros. -/
theorem neverPanics_two_reads :
    let _ : Target := ⟨64⟩
    let zeros : FileByteSource Unit := fun _ size => .ok (List.replicate size 0)
    NeverPanics (LayeredRangeMap Nat) 5
      [⟨.readBytesAt 1 3, zeros⟩, ⟨.readBytesAtUntil ⟨2, 5⟩ 0, zeros⟩] := by
  intro _ zeros
  refine (neverPanics_iff 5 (by decide) _ ?_).mpr ⟨?_, ?_, trivial⟩
  · intro call hcall offset size bytes hread
    simp only [List.mem_cons, List.not_mem_nil, or_false] at hcall
    rcases hcall with rfl | rfl
    · rw [← Except.ok.inj hread, List.length_replicate]
    · rw [← Except.ok.inj hread, List.length_replicate]
  · intro _ _
    exact Or.inr (by decide)
  · intro _ _ _
    exact ⟨by decide, Or.inr (by decide)⟩

omit [Target] in
/-- The empty range at the end of a file of five bytes reaches the manager's first
    assertion. -/
theorem not_neverPanics_empty_range :
    ¬ ∀ (_ : Target) (fileLen : Nat) (calls : List (CacheCall Unit)), fileLen < 2 ^ 64 →
      (∀ call ∈ calls, KeepsLength call.source) →
      NeverPanics (LayeredRangeMap Nat) fileLen calls := by
  intro h
  let target : Target := ⟨64⟩
  let call : CacheCall Unit :=
    ⟨.readBytesAtUntil ⟨5, 5⟩ 0, fun _ size => .ok (List.replicate size 0)⟩
  have hpanics : ((Checked.method call).run
      (new 5 : FileContentsWithChunkedCaching (LayeredRangeMap Nat))).1
      = .panic .emptyRange := by decide
  have hnever := h target 5 [call] (by decide) ?_
  · have hreturns : Returns ((Checked.method call).run
        (new 5 : FileContentsWithChunkedCaching (LayeredRangeMap Nat))).1 := hnever.1
    rw [hpanics] at hreturns
    rcases hreturns with ⟨value, heq⟩ | ⟨e, heq⟩
    · cases heq
    · cases heq
  · intro call' hcall offset size bytes hread
    rw [List.mem_singleton.mp hcall] at hread
    rw [← Except.ok.inj hread, List.length_replicate]

end ProfilerGetSymbols.Cache
