import ProfilerGetSymbols.ChunkedReadBufferManager
import ProfilerGetSymbols.ProgLib.HashMap

/-! # The chunked cache is transparent

    `FileContentsWithChunkedCaching` answers reads of a file from buffers it has
    read before, in rounded chunks, and from a cache of delimited strings.  The
    buffers overlap, and in the range map newer ones partly cover older ones.

    `Coherent F` ties the whole state to the file content `F`: every buffer is
    the slice of `F` at its recorded range, every piece of the range map lies in
    its buffer, and every cached string location holds a string of `F`.  Each
    method keeps it, whatever its source answers, and under it every answer is
    true to `F`. -/

namespace ProfilerGetSymbols.Cache

open ProgLib ChunkedReadBufferManager

variable [Target] {M : Type} [RangeMap M Nat] {E : Type}

/-- `CHUNK_SIZE`. -/
def chunkSize : Nat := 32 * 1024

/-- `MAX_LENGTH_INCLUDING_DELIMITER`. -/
def maxLengthIncludingDelimiter : Nat := 4096

/-- The errors of the two methods: the source's own, a length that does not fit
    a `usize`, or a refused request with its message. -/
inductive CacheError (E : Type) where
  | source (error : E)
  | tryFromInt
  | invalidInput (message : String)
  deriving DecidableEq, Repr

/-- `FileByteSource::read_bytes_into` into an empty buffer: offset and size to
    the bytes it appended, or its error. -/
abbrev FileByteSource (E : Type) := Nat → Nat → Except E Bytes

/-- `FileContentsWithChunkedCaching`, less its source. -/
structure FileContentsWithChunkedCaching (M : Type) where
  fileLen : Nat
  bufferManager : Manager M
  stringCache : HashMap (Nat × UInt8) RangeLocation
  buffers : List Bytes

abbrev Method (M E α : Type) :=
  Stateful (FileContentsWithChunkedCaching M) Panic (CacheError E) α

def new (fileLen : Nat) : FileContentsWithChunkedCaching M :=
  ⟨fileLen, newWithSize fileLen, HashMap.empty, []⟩

/-- `&buffer[location.offset_from_start..][..location.size]`. -/
def sliceFromLocation (c : FileContentsWithChunkedCaching M) (location : RangeLocation) :
    Call (CacheError E) Bytes := do
  let buffer ← Outcome.unwrap .indexOutOfBounds c.buffers[location.bufferHandle]?
  Outcome.assert .indexOutOfBounds (location.offsetFromStart ≤ buffer.length)
  Outcome.assert .indexOutOfBounds (location.size ≤ buffer.length - location.offsetFromStart)
  return slice buffer location.offsetFromStart (location.offsetFromStart + location.size)

/-- `usize::try_from`. -/
def tryIntoUsize (n : Nat) : Call (CacheError E) Nat :=
  if n < 2 ^ Target.usizeBits then .ok n else .err .tryFromInt

/-- One read of the source, whose error is passed on. -/
def readBytesInto (source : FileByteSource E) (offset size : Nat) : Call (CacheError E) Bytes :=
  match source offset size with
  | .ok bytes => .ok bytes
  | .error e => .err (.source e)

def getRangeLocation (source : FileByteSource E) (range : ByteRange) :
    Method M E RangeLocation := do
  let c ← Stateful.get
  match ← Stateful.lift (determineRangeSourcing chunkSize c.bufferManager range) with
  | .inExistingBuffer l => return l
  | .needToReadNewBuffer readRange =>
      Stateful.lift (Outcome.assert .invertedReadRange (readRange.start ≤ readRange.stop))
      -- Read the bytes from the source.
      let readLen ← Stateful.lift (tryIntoUsize (readRange.stop - readRange.start))
      let buffer ← Stateful.lift (readBytesInto source readRange.start readLen)
      Stateful.lift (Outcome.assert .wrongReadLength (buffer.length = readLen))
      let bufferHandle := c.buffers.length
      Stateful.set { c with buffers := c.buffers ++ [buffer] }
      let bufferManager ← Stateful.lift
        (insertBufferRange c.bufferManager readRange bufferHandle)
      Stateful.set { c with buffers := c.buffers ++ [buffer], bufferManager := bufferManager }
      return locationIn bufferHandle readRange.start range

def readBytesAt (source : FileByteSource E) (offset size : Nat) : Method M E Bytes := do
  if size = 0 then
    return []
  else
    let c ← Stateful.get
    if 2 ^ 64 ≤ offset + size then
      Stateful.lift (.err (.invalidInput "read_bytes_at with offset + size overflowing u64"))
    else if c.fileLen < offset + size then
      Stateful.lift (.err (.invalidInput "read_bytes_at range out-of-bounds"))
    else
      let location ← getRangeLocation source ⟨offset, offset + size⟩
      let c ← Stateful.get
      Stateful.lift (sliceFromLocation c location)

/-- `memchr`: the position of the first occurrence. -/
def memchr (needle : UInt8) (haystack : Bytes) : Option Nat :=
  haystack.findIdx? (· == needle)

def readBytesAtUntil (source : FileByteSource E) (range : ByteRange) (delimiter : UInt8) :
    Method M E Bytes := do
  let c ← Stateful.get
  if range.stop < range.start then
    Stateful.lift (.err
      (.invalidInput "read_bytes_at_until called with range.end < range.start"))
  else if c.fileLen < range.stop then
    Stateful.lift (.err (.invalidInput "read_bytes_at_until range out-of-bounds"))
  else
    match c.stringCache.get? (range.start, delimiter) with
    | some location => Stateful.lift (sliceFromLocation c location)
    | none =>
        let maxLen := min (range.stop - range.start) maxLengthIncludingDelimiter
        let location ← getRangeLocation source ⟨range.start, u64Add range.start maxLen⟩
        let c ← Stateful.get
        let bytes ← Stateful.lift (sliceFromLocation c location)
        match memchr delimiter bytes with
        | none => Stateful.lift (.err (.invalidInput "Could not find delimiter"))
        | some stringLen =>
            Stateful.set { c with
              stringCache := c.stringCache.insert (range.start, delimiter)
                { location with size := stringLen } }
            return slice bytes 0 stringLen

/-! ## Requests, calls and runs -/

inductive Request where
  | readBytesAt (offset size : Nat)
  | readBytesAtUntil (range : ByteRange) (delimiter : UInt8)

/-- A call of one of the two methods, with what the source would answer just then. -/
structure CacheCall (E : Type) where
  request : Request
  source : FileByteSource E

def CacheCall.method (call : CacheCall E) : Method M E Bytes :=
  match call.request with
  | .readBytesAt offset size => readBytesAt call.source offset size
  | .readBytesAtUntil range delimiter => readBytesAtUntil call.source range delimiter

/-- The state after a sequence of calls. -/
def runCalls (c : FileContentsWithChunkedCaching M) (calls : List (CacheCall E)) :
    FileContentsWithChunkedCaching M :=
  calls.foldl (fun c call => (call.method.run c).2) c

/-- A source of the file `F`: a read inside the file fails or appends exactly
    the bytes there. -/
def FaithfulTo (F : Bytes) (source : FileByteSource E) : Prop :=
  ∀ offset size bytes, source offset size = .ok bytes → offset + size ≤ F.length →
    bytes = slice F offset (offset + size)

/-- The bytes of `F` from `start` up to and excluding the first `delimiter`. -/
def IsStringAt (F : Bytes) (start : Nat) (delimiter : UInt8) (bytes : Bytes) : Prop :=
  ∃ p, start ≤ p ∧ F[p]? = some delimiter ∧
    (∀ q, start ≤ q → q < p → F[q]? ≠ some delimiter) ∧ bytes = slice F start p

/-- An answer that is true to the file. -/
def TrueTo (F : Bytes) : Request → Bytes → Prop
  | .readBytesAt offset size, bytes =>
      0 < size → offset + size ≤ F.length ∧ bytes = slice F offset (offset + size)
  | .readBytesAtUntil range delimiter, bytes => IsStringAt F range.start delimiter bytes

/-! ## The invariant -/

/-- A location inside a buffer that holds `bytes`. -/
def Holds (buffers : List Bytes) (location : RangeLocation) (bytes : Bytes) : Prop :=
  ∃ buffer, buffers[location.bufferHandle]? = some buffer ∧
    location.offsetFromStart + location.size ≤ buffer.length ∧
    slice buffer location.offsetFromStart (location.offsetFromStart + location.size) = bytes

/-- **THE INVARIANT** of the cache over the file content `F`. -/
structure Coherent (F : Bytes) (c : FileContentsWithChunkedCaching M) : Prop where
  fileLen : c.fileLen = F.length
  managerLen : c.bufferManager.fileLen = F.length
  pieces : Pieces c.bufferManager
  handles : c.bufferManager.bufferRanges.length = c.buffers.length
  /-- Every buffer is the slice of the file at its range. -/
  buffer : ∀ (i : Nat) (b : BufferRange), c.bufferManager.bufferRanges[i]? = some b →
    b.bufferHandle = i ∧ b.range.stop ≤ F.length ∧
    b.range.stop - b.range.start < 2 ^ Target.usizeBits ∧
    c.buffers[i]? = some (slice F b.range.start b.range.stop)
  /-- Every cached location holds the string it was cached for. -/
  strings : ∀ start delimiter location,
    c.stringCache.get? (start, delimiter) = some location →
    ∃ bytes, Holds c.buffers location bytes ∧ IsStringAt F start delimiter bytes

omit [Target] in
/-- Buffers are only ever added, so a location stays good. -/
theorem Holds.append {buffers : List Bytes} {location : RangeLocation} {bytes : Bytes}
    (h : Holds buffers location bytes) (more : List Bytes) :
    Holds (buffers ++ more) location bytes := by
  obtain ⟨buffer, hget, hle, hslice⟩ := h
  have hlt : location.bufferHandle < buffers.length := (List.getElem?_eq_some_iff.mp hget).1
  exact ⟨buffer, by rw [List.getElem?_append_left hlt]; exact hget, hle, hslice⟩

omit [Target] in
/-- A location cut short holds the front of its bytes. -/
theorem Holds.cut {buffers : List Bytes} {location : RangeLocation} {bytes : Bytes}
    (h : Holds buffers location bytes) {len : Nat} (hlen : len ≤ bytes.length) :
    Holds buffers { location with size := len } (slice bytes 0 len) := by
  obtain ⟨buffer, hget, hle, hslice⟩ := h
  have hsize : bytes.length = location.size := by
    rw [← hslice, length_slice hle]
    omega
  refine ⟨buffer, hget, ?_, ?_⟩
  · show location.offsetFromStart + len ≤ buffer.length
    omega
  · show slice buffer location.offsetFromStart (location.offsetFromStart + len) = _
    rw [← hslice, slice_slice (by omega)]
    rfl

omit [Target] [RangeMap M Nat] in
/-- A location that holds bytes is sliced without a panic. -/
theorem sliceFromLocation_of_holds {c : FileContentsWithChunkedCaching M}
    {location : RangeLocation} {bytes : Bytes} (h : Holds c.buffers location bytes) :
    (sliceFromLocation c location : Call (CacheError E) Bytes) = .ok bytes := by
  obtain ⟨buffer, hget, hle, hslice⟩ := h
  have h1 : (Outcome.assert .indexOutOfBounds (location.offsetFromStart ≤ buffer.length)
      : Call (CacheError E) Unit) = .ok () := if_pos (by omega)
  have h2 : (Outcome.assert .indexOutOfBounds
      (location.size ≤ buffer.length - location.offsetFromStart)
      : Call (CacheError E) Unit) = .ok () := if_pos (by omega)
  unfold sliceFromLocation
  rw [hget]
  simp only [Outcome.unwrap, Outcome.ok_bind, h1, h2, Outcome.pure_eq_ok, hslice]

/-- A fresh object over the file. -/
theorem coherent_new [LawfulRangeMap M] (F : Bytes) :
    Coherent F (new F.length : FileContentsWithChunkedCaching M) where
  fileLen := rfl
  managerLen := rfl
  pieces := pieces_newWithSize F.length
  handles := rfl
  buffer := by
    intro i b h
    exact absurd h (by simp [new, newWithSize])
  strings := by
    intro start delimiter location h
    exact absurd h (by simp [new])

/-- In a buffer short enough to be addressed, a location is where the range is. -/
theorem locationIn_exact {handle : Nat} {bufferRange range : ByteRange}
    (h64 : bufferRange.stop < 2 ^ 64)
    (hwidth : bufferRange.stop - bufferRange.start < 2 ^ Target.usizeBits)
    (hlo : bufferRange.start ≤ range.start) (hne : range.start < range.stop)
    (hhi : range.stop ≤ bufferRange.stop) :
    locationIn handle bufferRange.start range
      = ⟨handle, range.start - bufferRange.start, range.stop - range.start⟩ := by
  have hoffset : asUsize (u64Sub range.start bufferRange.start)
      = range.start - bufferRange.start := by
    rw [u64Sub_of_le hlo (by omega), asUsize_of_lt (by omega)]
  have hsize : asUsize (u64Sub range.stop range.start) = range.stop - range.start := by
    rw [u64Sub_of_le (Nat.le_of_lt hne) (by omega), asUsize_of_lt (by omega)]
  rw [locationIn, hoffset, hsize]

/-- A part of a buffer that is a slice of the file, and short enough to be
    addressed. -/
theorem holds_locationIn {F : Bytes} {buffers : List Bytes} {handle : Nat}
    {bufferRange range : ByteRange}
    (hget : buffers[handle]? = some (slice F bufferRange.start bufferRange.stop))
    (hF : bufferRange.stop ≤ F.length) (hF64 : F.length < 2 ^ 64)
    (hwidth : bufferRange.stop - bufferRange.start < 2 ^ Target.usizeBits)
    (hlo : bufferRange.start ≤ range.start) (hne : range.start < range.stop)
    (hhi : range.stop ≤ bufferRange.stop) :
    Holds buffers (locationIn handle bufferRange.start range)
      (slice F range.start range.stop) := by
  rw [locationIn_exact (by omega) hwidth hlo hne hhi]
  refine ⟨slice F bufferRange.start bufferRange.stop, hget, ?_, ?_⟩
  · rw [length_slice hF]
    dsimp only
    omega
  · dsimp only
    rw [slice_slice (by omega)]
    congr 1 <;> omega

/-! ## What the methods do -/

/-- The manager found the range in a buffer it has. -/
theorem getRangeLocation_existing {F : Bytes} {c : FileContentsWithChunkedCaching M}
    (hc : Coherent F c) (source : FileByteSource E) {range : ByteRange}
    (hne : range.start < range.stop) (hF64 : F.length < 2 ^ 64) {i : Nat} {b : BufferRange}
    (hb : c.bufferManager.bufferRanges[i]? = some b) (hlo : b.range.start ≤ range.start)
    (hhi : range.stop ≤ b.range.stop)
    (hdet : (determineRangeSourcing chunkSize c.bufferManager range
        : Call (CacheError E) RangeSourcing)
      = .ok (.inExistingBuffer (locationIn b.bufferHandle b.range.start range))) :
    ∃ location, (getRangeLocation source range).run c = (.ok location, c) ∧
      Holds c.buffers location (slice F range.start range.stop) := by
  obtain ⟨hhandle, hend, hwidth, hbuf⟩ := hc.buffer i b hb
  refine ⟨locationIn b.bufferHandle b.range.start range, ?_, ?_⟩
  · unfold getRangeLocation
    simp only [Stateful.run_bind, Stateful.run_get, Stateful.run_lift, hdet]
    rfl
  · rw [hhandle]
    exact holds_locationIn hbuf hend hF64 hwidth hlo hne hhi

/-- The cache with one buffer more. -/
def withRead (c : FileContentsWithChunkedCaching M) (readRange : ByteRange) (buffer : Bytes) :
    FileContentsWithChunkedCaching M :=
  { c with
    buffers := c.buffers ++ [buffer]
    bufferManager := withBuffer c.bufferManager readRange c.buffers.length }

omit [Target] in
/-- There is a buffer for each range that the manager knows. -/
theorem handles_withRead {c : FileContentsWithChunkedCaching M}
    (h : c.bufferManager.bufferRanges.length = c.buffers.length) (readRange : ByteRange)
    (buffer : Bytes) :
    (withRead c readRange buffer).bufferManager.bufferRanges.length
      = (withRead c readRange buffer).buffers.length := by
  show (c.bufferManager.bufferRanges ++ [_]).length = (c.buffers ++ [_]).length
  rw [List.length_append, List.length_append, h]
  rfl

omit [Target] in
/-- The new buffer is the last one. -/
theorem getElem?_withRead_new (c : FileContentsWithChunkedCaching M) (readRange : ByteRange)
    (buffer : Bytes) : (withRead c readRange buffer).buffers[c.buffers.length]? = some buffer :=
  List.getElem?_concat_length

omit [Target] in
/-- The old ones stay where they are. -/
theorem getElem?_withRead_old {c : FileContentsWithChunkedCaching M} {i : Nat} {old : Bytes}
    (h : c.buffers[i]? = some old) (readRange : ByteRange) (buffer : Bytes) :
    (withRead c readRange buffer).buffers[i]? = some old := by
  show (c.buffers ++ [_])[i]? = _
  rw [List.getElem?_append_left (List.getElem?_eq_some_iff.mp h).1]
  exact h

/-- **A READ**: the manager asked for a range that is not empty.  The range is too
    long for a `usize`, or the source fails, and nothing changes; or the source
    answers, and if it kept its word on the length there is one buffer more. -/
theorem getRangeLocation_read_cases {c : FileContentsWithChunkedCaching M}
    (source : FileByteSource E) {range readRange : ByteRange}
    (hne : readRange.start < readRange.stop)
    (hdet : (determineRangeSourcing chunkSize c.bufferManager range
        : Call (CacheError E) RangeSourcing) = .ok (.needToReadNewBuffer readRange)) :
    (∃ e, (getRangeLocation source range).run c = (.err e, c) ∧
      (2 ^ Target.usizeBits ≤ readRange.stop - readRange.start ∨
        ∃ e', source readRange.start (readRange.stop - readRange.start) = .error e')) ∨
    (∃ buffer, readRange.stop - readRange.start < 2 ^ Target.usizeBits ∧
      source readRange.start (readRange.stop - readRange.start) = .ok buffer ∧
      (buffer.length = readRange.stop - readRange.start →
        (getRangeLocation source range).run c
          = (.ok (locationIn c.buffers.length readRange.start range),
            withRead c readRange buffer))) := by
  have horder : (Outcome.assert .invertedReadRange (readRange.start ≤ readRange.stop)
      : Call (CacheError E) Unit) = .ok () := if_pos (by omega)
  by_cases hwidth : readRange.stop - readRange.start < 2 ^ Target.usizeBits
  case neg =>
    refine Or.inl ⟨.tryFromInt, ?_, Or.inl (Nat.le_of_not_lt hwidth)⟩
    unfold getRangeLocation
    simp only [Stateful.run_bind, Stateful.run_get, Stateful.run_lift, hdet, horder,
      tryIntoUsize, if_neg hwidth]
  -- the source fails, or its bytes become the newest buffer
  cases hread : source readRange.start (readRange.stop - readRange.start) with
  | error e =>
      refine Or.inl ⟨.source e, ?_, Or.inr ⟨e, rfl⟩⟩
      unfold getRangeLocation
      simp only [Stateful.run_bind, Stateful.run_get, Stateful.run_lift, hdet, horder,
        tryIntoUsize, if_pos hwidth, readBytesInto, hread]
  | ok buffer =>
      refine Or.inr ⟨buffer, hwidth, rfl, fun hlen => ?_⟩
      have hassert : (Outcome.assert .wrongReadLength
          (buffer.length = readRange.stop - readRange.start) : Call (CacheError E) Unit)
          = .ok () := if_pos hlen
      have hins := insertBufferRange_eq (ε := CacheError E) c.bufferManager c.buffers.length hne
      unfold getRangeLocation
      simp only [Stateful.run_bind, Stateful.run_get, Stateful.run_lift, Stateful.run_set,
        Stateful.run_pure, hdet, horder, tryIntoUsize, if_pos hwidth, readBytesInto, hread,
        hassert, hins]
      rfl

/-- A buffer with the file's bytes keeps the invariant. -/
theorem Coherent.withRead [LawfulRangeMap M] {F : Bytes} {c : FileContentsWithChunkedCaching M}
    (hc : Coherent F c) {readRange : ByteRange} (hend : readRange.stop ≤ F.length)
    (hwidth : readRange.stop - readRange.start < 2 ^ Target.usizeBits) :
    Coherent F (withRead c readRange (slice F readRange.start readRange.stop)) where
  fileLen := hc.fileLen
  managerLen := hc.managerLen
  pieces := hc.pieces.withBuffer readRange c.buffers.length
  handles := handles_withRead hc.handles _ _
  buffer := by
    intro i b hb
    rcases getElem?_withBuffer_cases hb with ⟨hi, rfl⟩ | hold
    · refine ⟨by rw [hi, hc.handles], hend, hwidth, ?_⟩
      rw [hi, hc.handles]
      exact getElem?_withRead_new c _ _
    · obtain ⟨h1, h2, h3, h4⟩ := hc.buffer i b hold
      exact ⟨h1, h2, h3, getElem?_withRead_old h4 _ _⟩
  strings := by
    intro start delimiter location h
    obtain ⟨bytes, hholds, hstr⟩ := hc.strings start delimiter location h
    exact ⟨bytes, hholds.append _, hstr⟩

/-- The manager asked for a read: it fails and changes nothing, or a buffer with
    the file's bytes is added. -/
theorem getRangeLocation_read [LawfulRangeMap M] {F : Bytes}
    {c : FileContentsWithChunkedCaching M} (hc : Coherent F c) {source : FileByteSource E}
    (hsrc : FaithfulTo F source) {range readRange : ByteRange}
    (hne : range.start < range.stop) (hF64 : F.length < 2 ^ 64)
    (hlo : readRange.start ≤ range.start) (hhi : range.stop ≤ readRange.stop)
    (hend : readRange.stop ≤ F.length)
    (hdet : (determineRangeSourcing chunkSize c.bufferManager range
        : Call (CacheError E) RangeSourcing) = .ok (.needToReadNewBuffer readRange)) :
    (∃ location c', (getRangeLocation source range).run c = (.ok location, c') ∧
      Coherent F c' ∧ c'.stringCache = c.stringCache ∧
      Holds c'.buffers location (slice F range.start range.stop)) ∨
    (∃ e, (getRangeLocation source range).run c = (.err e, c) ∧
      (2 ^ Target.usizeBits ≤ readRange.stop - readRange.start ∨
        ∃ e', source readRange.start (readRange.stop - readRange.start) = .error e')) := by
  rcases getRangeLocation_read_cases source (show readRange.start < readRange.stop by omega) hdet
    with hfails | ⟨buffer, hwidth, hread, hrun⟩
  · exact Or.inr hfails
  · -- the source is faithful, so the buffer is the slice and has its length
    have hbytes : buffer = slice F readRange.start readRange.stop := by
      have h := hsrc _ _ _ hread (by omega)
      rwa [show readRange.start + (readRange.stop - readRange.start) = readRange.stop
        by omega] at h
    subst hbytes
    refine Or.inl ⟨_, _, hrun (length_slice hend), hc.withRead hend hwidth, rfl, ?_⟩
    refine holds_locationIn ?_ hend hF64 hwidth hlo hne hhi
    show (c.buffers ++ [_])[c.buffers.length]? = _
    simp

/-- A lookup that found the file's bytes, or failed and changed nothing. -/
def Located (F : Bytes) (c : FileContentsWithChunkedCaching M) (range : ByteRange)
    (answer : Call (CacheError E) RangeLocation × FileContentsWithChunkedCaching M) : Prop :=
  (∃ location c', answer = (.ok location, c') ∧ Coherent F c' ∧
    c'.stringCache = c.stringCache ∧
    Holds c'.buffers location (slice F range.start range.stop)) ∨
  (∃ e, answer = (.err e, c))

/-- **THE LOOKUP**: with a valid range the location holds the file's bytes, or
    the call fails and nothing has changed. -/
theorem getRangeLocation_spec [LawfulRangeMap M] {F : Bytes} (hF64 : F.length < 2 ^ 64)
    {c : FileContentsWithChunkedCaching M} (hc : Coherent F c) {source : FileByteSource E}
    (hsrc : FaithfulTo F source) {range : ByteRange} (hfit : range.stop + 32767 < 2 ^ 64)
    (hne : range.start < range.stop) (hend : range.stop ≤ F.length) :
    Located F c range ((getRangeLocation source range).run c) := by
  rcases determineRangeSourcing_cases (CacheError E) chunkSize hc.pieces
      hne (hc.managerLen ▸ hend) with ⟨i, b, hb, hlo, hhi, hdet⟩ | ⟨cached, hdet⟩
  · obtain ⟨location, hrun, hholds⟩ :=
      getRangeLocation_existing hc source hne hF64 hb hlo hhi hdet
    exact Or.inl ⟨location, c, hrun, hc, rfl, hholds⟩
  · obtain ⟨h1, h2, h3⟩ := readRangeFor_covers chunkSize c.bufferManager.fileLen (by decide)
      cached range hfit (hc.managerLen ▸ hend)
    rcases getRangeLocation_read hc hsrc hne hF64 h1 h2 (hc.managerLen ▸ h3) hdet with
      hfound | ⟨e, hrun, -⟩
    · exact Or.inl hfound
    · exact Or.inr ⟨e, hrun⟩

/-- What a call may do: keep the invariant, answer truthfully, and leave
    everything as it was when its source fails. -/
def Sound (F : Bytes) (request : Request) (c : FileContentsWithChunkedCaching M)
    (answer : Call (CacheError E) Bytes × FileContentsWithChunkedCaching M) : Prop :=
  Coherent F answer.2 ∧ (∀ bytes, answer.1 = .ok bytes → TrueTo F request bytes) ∧
    (∀ e, answer.1 = .err (.source e) → answer.2 = c)

/-- A call that fails without touching the state is sound. -/
theorem sound_of_unchanged {F : Bytes} {request : Request}
    {c : FileContentsWithChunkedCaching M} (hc : Coherent F c)
    {outcome : Call (CacheError E) Bytes}
    (h : ∀ bytes, outcome = .ok bytes → TrueTo F request bytes) :
    Sound F request c (outcome, c) :=
  ⟨hc, h, fun _ _ => rfl⟩

theorem readBytesAt_sound {F : Bytes} {c : FileContentsWithChunkedCaching M}
    (hc : Coherent F c) (source : FileByteSource E) (offset size : Nat)
    (hloc : offset < offset + size → offset + size ≤ F.length →
      Located F c ⟨offset, offset + size⟩
        ((getRangeLocation source ⟨offset, offset + size⟩).run c)) :
    Sound F (.readBytesAt offset size) c ((readBytesAt source offset size).run c) := by
  unfold readBytesAt
  by_cases hsize : size = 0
  · rw [if_pos hsize]
    exact sound_of_unchanged hc (fun bytes _ hpos => absurd hsize (by omega))
  rw [if_neg hsize, Stateful.run_bind, Stateful.run_get]
  by_cases hover : 2 ^ 64 ≤ offset + size
  · simp only [if_pos hover]
    exact sound_of_unchanged hc (fun bytes h => by cases h)
  by_cases hend : c.fileLen < offset + size
  · simp only [if_neg hover, if_pos hend]
    exact sound_of_unchanged hc (fun bytes h => by cases h)
  simp only [if_neg hover, if_neg hend, Stateful.run_bind]
  rw [hc.fileLen] at hend
  rcases hloc (by omega) (by omega) with ⟨location, c', hrun, hc', hstrings, hholds⟩ | ⟨e, hrun⟩
  · simp only [hrun, Stateful.run_get, Stateful.run_lift, sliceFromLocation_of_holds hholds]
    refine ⟨hc', ?_, fun e h => by cases h⟩
    intro bytes hb _
    exact ⟨by omega, (Outcome.ok.inj hb).symm⟩
  · simp only [hrun]
    exact sound_of_unchanged hc (fun bytes h => by cases h)

omit [Target] in
/-- `memchr` in a slice of the file finds the string at its start. -/
theorem isStringAt_of_memchr {F : Bytes} {start stop len : Nat} {delimiter : UInt8}
    (hstop : stop ≤ F.length) (h : memchr delimiter (slice F start stop) = some len) :
    len ≤ stop - start ∧
      IsStringAt F start delimiter (slice (slice F start stop) 0 len) := by
  obtain ⟨hlt, hhit, hfirst⟩ := List.findIdx?_eq_some_iff_getElem.mp h
  have hlen : len < stop - start := by rwa [length_slice hstop] at hlt
  refine ⟨Nat.le_of_lt hlen, start + len, Nat.le_add_right _ _, ?_, ?_, ?_⟩
  · rw [← getElem?_slice hlen, List.getElem?_eq_getElem hlt]
    simpa using hhit
  · intro q hq1 hq2 hq
    have hlt' : q - start < (slice F start stop).length := by
      rw [length_slice hstop]
      omega
    refine hfirst (q - start) (by omega) ?_
    have hget : (slice F start stop)[q - start]? = some delimiter := by
      rw [getElem?_slice (by omega), show start + (q - start) = q by omega]
      exact hq
    rw [List.getElem?_eq_getElem hlt', Option.some.injEq] at hget
    simpa using hget
  · rw [slice_slice (by omega)]
    rfl

/-- Storing a string's location keeps the invariant. -/
theorem Coherent.insertString {F : Bytes} {c : FileContentsWithChunkedCaching M}
    (hc : Coherent F c) {start : Nat} {delimiter : UInt8} {location : RangeLocation}
    {bytes : Bytes} (hholds : Holds c.buffers location bytes)
    (hstr : IsStringAt F start delimiter bytes) :
    Coherent F { c with
      stringCache := c.stringCache.insert (start, delimiter) location } where
  fileLen := hc.fileLen
  managerLen := hc.managerLen
  pieces := hc.pieces
  handles := hc.handles
  buffer := hc.buffer
  strings := by
    intro start' delimiter' location' h
    by_cases hkey : (start, delimiter) = (start', delimiter')
    · obtain ⟨rfl, rfl⟩ := Prod.mk.inj hkey
      have hloc : location = location' := by
        rw [HashMap.get?_insert_self, Option.some.injEq] at h
        exact h
      rw [← hloc]
      exact ⟨bytes, hholds, hstr⟩
    · rw [HashMap.get?_insert_of_ne _ _ (by simpa using hkey)] at h
      exact hc.strings start' delimiter' location' h

/-- The length that is searched: the range's, at most 4096. -/
def searchLen (range : ByteRange) : Nat :=
  min (range.stop - range.start) maxLengthIncludingDelimiter

theorem readBytesAtUntil_sound {F : Bytes} (hF64 : F.length < 2 ^ 64)
    {c : FileContentsWithChunkedCaching M} (hc : Coherent F c) (source : FileByteSource E)
    {range : ByteRange} (delimiter : UInt8)
    (hloc : c.stringCache.get? (range.start, delimiter) = none → range.start ≤ range.stop →
      range.stop ≤ F.length → Located F c ⟨range.start, range.start + searchLen range⟩
        ((getRangeLocation source ⟨range.start, range.start + searchLen range⟩).run c)) :
    Sound F (.readBytesAtUntil range delimiter) c
      ((readBytesAtUntil source range delimiter).run c) := by
  unfold readBytesAtUntil
  rw [Stateful.run_bind, Stateful.run_get]
  by_cases hinv : range.stop < range.start
  · simp only [if_pos hinv]
    exact sound_of_unchanged hc (fun bytes h => by cases h)
  simp only [if_neg hinv]
  by_cases hend : c.fileLen < range.stop
  · simp only [if_pos hend]
    exact sound_of_unchanged hc (fun bytes h => by cases h)
  simp only [if_neg hend]
  rw [hc.fileLen] at hend
  cases hcached : c.stringCache.get? (range.start, delimiter) with
  | some location =>
      obtain ⟨bytes, hholds, hstr⟩ := hc.strings _ _ _ hcached
      simp only [Stateful.run_lift, sliceFromLocation_of_holds hholds]
      refine sound_of_unchanged hc ?_
      intro bytes' h
      rw [← Outcome.ok.inj h]
      exact hstr
  | none =>
      -- the search reads at most 4096 bytes, which stay inside the range
      have hmax : searchLen range ≤ range.stop - range.start := Nat.min_le_left _ _
      rw [show min (range.stop - range.start) maxLengthIncludingDelimiter = searchLen range
        from rfl, u64Add_of_lt (show range.start + searchLen range < 2 ^ 64 by omega)]
      simp only [Stateful.run_bind]
      rcases hloc hcached (by omega) (by omega)
        with ⟨location, c', hrun, hc', hstrings, hholds⟩ | ⟨e, hrun⟩
      · simp only [hrun, Stateful.run_get, Stateful.run_lift,
          sliceFromLocation_of_holds hholds]
        cases hfind : memchr delimiter (slice F range.start (range.start + searchLen range)) with
        | none =>
            refine ⟨hc', ?_, ?_⟩
            · intro bytes h
              cases h
            · intro e h
              cases h
        | some len =>
            obtain ⟨hlen, hstr⟩ := isStringAt_of_memchr (by omega) hfind
            have hcut : Holds c'.buffers { location with size := len }
                (slice (slice F range.start (range.start + searchLen range)) 0 len) :=
              hholds.cut (by
                rw [length_slice (by show range.start + searchLen range ≤ _; omega)]
                exact hlen)
            refine ⟨hc'.insertString hcut hstr, ?_, ?_⟩
            · intro bytes h
              rw [← Outcome.ok.inj h]
              exact hstr
            · intro e h
              cases h
      · simp only [hrun]
        exact sound_of_unchanged hc (fun bytes h => by cases h)

/-! ## Runs -/

/-- A `read_bytes_at_until` on a range that is not empty; any `read_bytes_at`. -/
def Request.NonEmpty : Request → Prop
  | .readBytesAt _ _ => True
  | .readBytesAtUntil range _ => range.start < range.stop

/-- One call, in any coherent state. -/
theorem call_sound [LawfulRangeMap M] {F : Bytes} (hn : F.length + 32767 < 2 ^ 64)
    {c : FileContentsWithChunkedCaching M} (hc : Coherent F c) {call : CacheCall E}
    (hsrc : FaithfulTo F call.source) (hne : call.request.NonEmpty) :
    Sound F call.request c (call.method.run c) := by
  obtain ⟨request, source⟩ := call
  cases request with
  | readBytesAt offset size =>
      refine readBytesAt_sound hc source offset size (fun hlt hend => ?_)
      exact getRangeLocation_spec (by omega) hc hsrc
        (show offset + size + 32767 < 2 ^ 64 by omega) hlt hend
  | readBytesAtUntil range delimiter =>
      have hmax : searchLen range ≤ range.stop - range.start := Nat.min_le_left _ _
      have hpos : 0 < searchLen range :=
        Nat.lt_min.mpr ⟨Nat.sub_pos_of_lt hne, by decide⟩
      refine readBytesAtUntil_sound (by omega) hc source delimiter (fun _ hle hend => ?_)
      exact getRangeLocation_spec (by omega) hc hsrc
        (show range.start + searchLen range + 32767 < 2 ^ 64 by omega)
        (show range.start < range.start + searchLen range by omega)
        (show range.start + searchLen range ≤ F.length by omega)

/-- Every run keeps the invariant. -/
theorem coherent_runCalls [LawfulRangeMap M] {F : Bytes} (hn : F.length + 32767 < 2 ^ 64)
    {c : FileContentsWithChunkedCaching M} (hc : Coherent F c) {calls : List (CacheCall E)}
    (hcalls : ∀ call ∈ calls, FaithfulTo F call.source ∧ call.request.NonEmpty) :
    Coherent F (runCalls c calls) := by
  induction calls generalizing c with
  | nil => exact hc
  | cons call rest ih =>
      obtain ⟨hsrc, hne⟩ := hcalls call (List.mem_cons_self ..)
      have hnext : Coherent F (call.method.run c).2 := (call_sound hn hc hsrc hne).1
      exact ih hnext (fun call' h => hcalls call' (List.mem_cons_of_mem _ h))

/-- **TRANSPARENCY**: in every sequence of calls on one object over the file
    `F`, every answer is true to `F`, and a call whose source read fails leaves
    the whole state as it was. -/
theorem chunkedCaching_transparent [LawfulRangeMap M] (F : Bytes)
    (hn : F.length + 32767 < 2 ^ 64) (calls : List (CacheCall E))
    (hcalls : ∀ call ∈ calls, FaithfulTo F call.source ∧ call.request.NonEmpty)
    (before : List (CacheCall E)) (call : CacheCall E) (after : List (CacheCall E))
    (hsplit : calls = before ++ call :: after) :
    let c : FileContentsWithChunkedCaching M := runCalls (new F.length) before
    let answer := call.method.run c
    (∀ bytes, answer.1 = .ok bytes → TrueTo F call.request bytes) ∧
      (∀ e, answer.1 = .err (.source e) → answer.2 = c) := by
  intro c answer
  rw [hsplit] at hcalls
  have hc : Coherent F c := coherent_runCalls hn (coherent_new F)
    (fun call' h => hcalls call' (List.mem_append_left _ h))
  obtain ⟨hsrc, hne⟩ := hcalls call (List.mem_append_right _ (List.mem_cons_self ..))
  exact (call_sound hn hc hsrc hne).2

omit [Target] in
/-- A string read, a failing read and a read from the buffer of the first, on a
    file of five bytes. -/
theorem chunkedCaching_transparent_five_bytes :
    let _ : Target := ⟨64⟩
    let F : Bytes := [104, 105, 0, 7, 8]
    let good : FileByteSource Unit := fun o s => .ok (slice F o (o + s))
    let first : CacheCall Unit := ⟨.readBytesAtUntil ⟨1, 5⟩ 0, good⟩
    let second : CacheCall Unit := ⟨.readBytesAt 4 1, fun _ _ => .error ()⟩
    let third : CacheCall Unit := ⟨.readBytesAt 2 3, good⟩
    let c : FileContentsWithChunkedCaching (LayeredRangeMap Nat) :=
      runCalls (new 5) [first, second]
    (third.method.run c).1 = .ok [0, 7, 8] ∧ TrueTo F third.request [0, 7, 8] := by
  intro _ F good first second third c
  have hgood : FaithfulTo F good := by
    intro offset size bytes h _
    exact (Except.ok.inj h).symm
  have hanswer : (third.method.run c).1 = .ok [0, 7, 8] := by decide
  refine ⟨hanswer, (chunkedCaching_transparent (M := LayeredRangeMap Nat) F (by decide)
    [first, second, third] ?_ [first, second] third [] rfl).1 _ hanswer⟩
  intro call hcall
  simp only [List.mem_cons, List.not_mem_nil, or_false] at hcall
  rcases hcall with rfl | rfl | rfl
  · exact ⟨hgood, show 1 < 5 by decide⟩
  · exact ⟨(fun _ _ _ h => by cases h), trivial⟩
  · exact ⟨hgood, trivial⟩

end ProfilerGetSymbols.Cache
