import ProfilerGetSymbols.Object
import ProfilerGetSymbols.ProgLib.Family

/-! # The DWARF reader — a byte-slice cursor over a part of a file

    `gimli` reads the debug sections through its `Reader` trait.  An
    `EndianRangeReadRef` implements it by a start and a size, and goes to the file
    for the bytes only where an operation hands some out.

    `Cursor` is what such a reader is for: a byte slice, and where it lies.  Readers
    and cursors that start out alike stay so, whatever is done with them and with the
    readers split off them. -/

namespace ProfilerGetSymbols

open ProgLib

/-! ## The reader -/

inductive RunTimeEndian where
  | little | big
  deriving DecidableEq, Repr

/-- `gimli::Error`, the errors of a reader. -/
inductive GimliError where
  | unexpectedEof (offsetId : Nat)
  | io
  | badUtf8
  deriving DecidableEq, Repr

/-- `ReadRef::read_bytes_at`, by what it answers at one moment. -/
abbrev ReadRef := Nat → Nat → Option Bytes

/-- The reader, less the `ReadRef` it reads from. -/
structure EndianRangeReadRef where
  rangeStart : Nat
  rangeSize : Nat
  endian : RunTimeEndian
  deriving DecidableEq, Repr

namespace EndianRangeReadRef

variable [Target]

abbrev Method (α : Type) := Stateful EndianRangeReadRef Panic GimliError α

def new (range : RangeReadRef) (endian : RunTimeEndian) : EndianRangeReadRef :=
  ⟨range.rangeStart, range.rangeSize, endian⟩

def len (self : EndianRangeReadRef) : Nat := asUsize self.rangeSize

def isEmpty (self : EndianRangeReadRef) : Bool := self.rangeSize == 0

def offsetId (self : EndianRangeReadRef) : Nat := self.rangeStart

def empty : Method Unit := do
  let self ← Stateful.get
  Stateful.set { self with rangeSize := 0 }

def truncate (len : Nat) : Method Unit := do
  let self ← Stateful.get
  if self.rangeSize < len then
    Stateful.lift (.err (.unexpectedEof self.offsetId))
  else
    Stateful.set { self with rangeSize := len }

def offsetFrom (self base : EndianRangeReadRef) : Nat :=
  asUsize (u64Sub self.rangeStart base.rangeStart)

def lookupOffsetId (self : EndianRangeReadRef) (id : Nat) : Option Nat :=
  if self.rangeStart ≤ id ∧ id ≤ u64Add self.rangeStart self.rangeSize then
    some (asUsize (u64Sub id self.rangeStart))
  else
    none

/-- The loop of `find`, from a chunk on.  Every round goes on by a byte or more, so
    there are no more rounds than bytes. -/
def findFrom (read : ReadRef) (self : EndianRangeReadRef) (byte : UInt8) (stop : Nat) :
    Nat → Nat → Call GimliError Nat
  | 0, _ => .err (.unexpectedEof self.offsetId)
  | rounds + 1, chunkStart => do
      if chunkStart < stop then
        let chunkSize := min 4096 (u64Sub stop chunkStart)
        match read chunkStart chunkSize with
        | none => .err .io
        | some readChunk =>
            match readChunk.findIdx? (· == byte) with
            | some pos => return asUsize (asUsize (u64Sub chunkStart self.rangeStart) + pos)
            | none => findFrom read self byte stop rounds (u64Add chunkStart chunkSize)
      else
        .err (.unexpectedEof self.offsetId)

def find (read : ReadRef) (self : EndianRangeReadRef) (byte : UInt8) : Call GimliError Nat :=
  findFrom read self byte (u64Add self.rangeStart self.rangeSize) self.rangeSize self.rangeStart

def skip (len : Nat) : Method Unit := do
  let self ← Stateful.get
  if self.rangeSize < len then
    Stateful.lift (.err (.unexpectedEof self.offsetId))
  else
    Stateful.set { self with
      rangeStart := u64Add self.rangeStart len
      rangeSize := u64Sub self.rangeSize len }

def split (len : Nat) : Method EndianRangeReadRef := do
  let self ← Stateful.get
  if self.rangeSize < len then
    Stateful.lift (.err (.unexpectedEof self.offsetId))
  else
    Stateful.set { self with
      rangeStart := u64Add self.rangeStart len
      rangeSize := u64Sub self.rangeSize len }
    return { self with rangeSize := len }

def toSlice (read : ReadRef) (self : EndianRangeReadRef) : Call GimliError Bytes :=
  match read self.rangeStart self.rangeSize with
  | some slice => .ok slice
  | none => .err .io

def toString (read : ReadRef) (self : EndianRangeReadRef) : Call GimliError String := do
  let slice ← toSlice read self
  match fromUtf8 slice with
  | some s => return s
  | none => .err .badUtf8

def toStringLossy (read : ReadRef) (self : EndianRangeReadRef) : Call GimliError String := do
  let slice ← toSlice read self
  return Paths.fromUtf8Lossy slice

/-- The content of the caller's buffer afterwards, from its length. -/
def readSlice (read : ReadRef) (bufLen : Nat) : Method Bytes := do
  let self ← Stateful.get
  if self.rangeSize < bufLen then
    Stateful.lift (.err (.unexpectedEof self.offsetId))
  else
    match read self.rangeStart bufLen with
    | none => Stateful.lift (.err .io)
    | some slice =>
        Stateful.lift (Outcome.assert .sliceLengthMismatch (slice.length = bufLen))
        Stateful.set { self with
          rangeStart := u64Add self.rangeStart bufLen
          rangeSize := u64Sub self.rangeSize bufLen }
        return slice

end EndianRangeReadRef

/-! ## Operations on readers -/

inductive ReaderOp where
  | len | isEmpty | empty | offsetFrom | offsetId | toSlice | toString | toStringLossy
  | truncate (len : Nat)
  | lookupOffsetId (id : Nat)
  | find (byte : UInt8)
  | skip (len : Nat)
  | split (len : Nat)
  | readSlice (bufLen : Nat)

/-- What an operation hands back, besides a reader. -/
inductive ReaderValue where
  | unit
  | offset (offset : Nat)
  | flag (flag : Bool)
  | lookup (offset : Option Nat)
  | bytes (bytes : Bytes)
  | text (text : String)
  deriving DecidableEq, Repr

abbrev ReaderAnswer := Call GimliError ReaderValue

namespace EndianRangeReadRef

variable [Target]

/-- An operation that only looks at the reader. -/
def look (self : EndianRangeReadRef) (answer : ReaderAnswer) :
    ReaderAnswer × EndianRangeReadRef × Option EndianRangeReadRef := (answer, self, none)

/-- An operation that makes no new reader. -/
def change {α : Type} (self : EndianRangeReadRef) (value : α → ReaderValue) (method : Method α) :
    ReaderAnswer × EndianRangeReadRef × Option EndianRangeReadRef :=
  (value <$> (method.run self).1, (method.run self).2, none)

/-- One operation, with what the file answers just then. -/
def perform : Perform (ReaderOp × ReadRef) ReaderAnswer EndianRangeReadRef
  | (.len, _), self, _ => self.look (.ok (.offset self.len))
  | (.isEmpty, _), self, _ => self.look (.ok (.flag self.isEmpty))
  | (.empty, _), self, _ => self.change (fun _ => .unit) empty
  | (.offsetFrom, _), self, base => self.look (.ok (.offset (self.offsetFrom base)))
  | (.offsetId, _), self, _ => self.look (.ok (.offset self.offsetId))
  | (.toSlice, read), self, _ => self.look (.bytes <$> toSlice read self)
  | (.toString, read), self, _ => self.look (.text <$> toString read self)
  | (.toStringLossy, read), self, _ => self.look (.text <$> toStringLossy read self)
  | (.truncate len, _), self, _ => self.change (fun _ => .unit) (truncate len)
  | (.lookupOffsetId id, _), self, _ => self.look (.ok (.lookup (self.lookupOffsetId id)))
  | (.find byte, read), self, _ => self.look (.offset <$> find read self byte)
  | (.skip len, _), self, _ => self.change (fun _ => .unit) (skip len)
  | (.split len, _), self, _ =>
      let split := (split len).run self
      ((fun _ => .unit) <$> split.1, split.2,
        match split.1 with
        | .ok reader => some reader
        | _ => none)
  | (.readSlice bufLen, read), self, _ => self.change .bytes (readSlice read bufLen)

end EndianRangeReadRef

/-! ## Byte-slice cursors -/

/-- A byte slice, and its place in what it is a part of. -/
structure Cursor where
  pos : Nat
  bytes : Bytes
  deriving DecidableEq, Repr

namespace Cursor

/-- Where there are not enough bytes. -/
def unexpectedEof (c : Cursor) : ReaderAnswer × Cursor × Option Cursor :=
  (.err (.unexpectedEof c.pos), c, none)

/-- The cursor behind its first `len` bytes. -/
def behind (c : Cursor) (len : Nat) : Cursor := ⟨c.pos + len, c.bytes.drop len⟩

/-- The cursor of its first `len` bytes. -/
def front (c : Cursor) (len : Nat) : Cursor := ⟨c.pos, c.bytes.take len⟩

/-- One operation on a byte slice. -/
def perform : Perform (ReaderOp × ReadRef) ReaderAnswer Cursor
  | (.len, _), c, _ => (.ok (.offset c.bytes.length), c, none)
  | (.isEmpty, _), c, _ => (.ok (.flag c.bytes.isEmpty), c, none)
  | (.empty, _), c, _ => (.ok .unit, c.front 0, none)
  | (.offsetFrom, _), c, base => (.ok (.offset (c.pos - base.pos)), c, none)
  | (.offsetId, _), c, _ => (.ok (.offset c.pos), c, none)
  | (.toSlice, _), c, _ => (.ok (.bytes c.bytes), c, none)
  | (.toString, _), c, _ =>
      (match fromUtf8 c.bytes with
        | some s => .ok (.text s)
        | none => .err .badUtf8, c, none)
  | (.toStringLossy, _), c, _ => (.ok (.text (Paths.fromUtf8Lossy c.bytes)), c, none)
  | (.truncate len, _), c, _ =>
      if len ≤ c.bytes.length then (.ok .unit, c.front len, none) else c.unexpectedEof
  | (.lookupOffsetId id, _), c, _ =>
      (.ok (.lookup (if c.pos ≤ id ∧ id ≤ c.pos + c.bytes.length then some (id - c.pos) else none)),
        c, none)
  | (.find byte, _), c, _ =>
      match c.bytes.findIdx? (· == byte) with
      | some i => (.ok (.offset i), c, none)
      | none => c.unexpectedEof
  | (.skip len, _), c, _ =>
      if len ≤ c.bytes.length then (.ok .unit, c.behind len, none) else c.unexpectedEof
  | (.split len, _), c, _ =>
      if len ≤ c.bytes.length then (.ok .unit, c.behind len, some (c.front len))
      else c.unexpectedEof
  | (.readSlice bufLen, _), c, _ =>
      if bufLen ≤ c.bytes.length then (.ok (.bytes (c.bytes.take bufLen)), c.behind bufLen, none)
      else c.unexpectedEof

end Cursor

/-! ## What the methods do -/

namespace EndianRangeReadRef

/-- The reader of the first `len` bytes. -/
def front (self : EndianRangeReadRef) (len : Nat) : EndianRangeReadRef :=
  { self with rangeSize := len }

/-- The reader behind the first `len` bytes. -/
def behind (self : EndianRangeReadRef) (len : Nat) : EndianRangeReadRef :=
  { self with
    rangeStart := u64Add self.rangeStart len
    rangeSize := u64Sub self.rangeSize len }

/-- A method that goes on only where there are `len` bytes left. -/
theorem run_of_checked {α : Type} (rest : EndianRangeReadRef → Method α)
    (self : EndianRangeReadRef) (len : Nat) :
    Stateful.run (do
        let self ← Stateful.get
        if self.rangeSize < len then Stateful.lift (.err (.unexpectedEof self.offsetId))
        else rest self) self
      = if self.rangeSize < len then (.err (.unexpectedEof self.rangeStart), self)
        else (rest self).run self := by
  rw [Stateful.run_bind, Stateful.run_get]
  by_cases h : self.rangeSize < len
  · simp only [if_pos h]
    rfl
  · simp only [if_neg h]

theorem run_truncate (self : EndianRangeReadRef) (len : Nat) :
    (truncate len).run self
      = if self.rangeSize < len then (.err (.unexpectedEof self.rangeStart), self)
        else (.ok (), self.front len) :=
  run_of_checked _ self len

theorem run_skip (self : EndianRangeReadRef) (len : Nat) :
    (skip len).run self
      = if self.rangeSize < len then (.err (.unexpectedEof self.rangeStart), self)
        else (.ok (), self.behind len) :=
  run_of_checked _ self len

theorem run_split (self : EndianRangeReadRef) (len : Nat) :
    (split len).run self
      = if self.rangeSize < len then (.err (.unexpectedEof self.rangeStart), self)
        else (.ok (self.front len), self.behind len) :=
  run_of_checked _ self len

theorem run_readSlice (read : ReadRef) (self : EndianRangeReadRef) (bufLen : Nat) :
    (readSlice read bufLen).run self
      = if self.rangeSize < bufLen then (.err (.unexpectedEof self.rangeStart), self)
        else
          match read self.rangeStart bufLen with
          | none => (.err .io, self)
          | some slice =>
              if slice.length = bufLen then (.ok slice, self.behind bufLen)
              else (.panic .sliceLengthMismatch, self) := by
  refine (run_of_checked _ self bufLen).trans ?_
  cases read self.rangeStart bufLen with
  | none => rfl
  | some slice =>
      by_cases hlen : slice.length = bufLen
      · simp only [Stateful.run_bind, Stateful.run_lift, Outcome.assert, if_pos hlen,
          Stateful.run_set]
        rfl
      · simp only [Stateful.run_bind, Stateful.run_lift, Outcome.assert, if_neg hlen]

variable [Target]

/-- **ERRORS** leave the reader as it is, whatever the file answers. -/
theorem perform_err (op : ReaderOp × ReadRef) (self other : EndianRangeReadRef) {e : GimliError}
    (h : (perform op self other).1 = .err e) : (perform op self other).2 = (self, none) := by
  obtain ⟨op, read⟩ := op
  -- only the last four can fail and change the reader, and each checks before it does
  cases op with
  | len => rfl
  | isEmpty => rfl
  | offsetFrom => rfl
  | offsetId => rfl
  | toSlice => rfl
  | toString => rfl
  | toStringLossy => rfl
  | lookupOffsetId id => rfl
  | find byte => rfl
  | empty => cases h
  | truncate len =>
      simp only [perform, change, run_truncate] at h ⊢
      by_cases hlen : self.rangeSize < len
      · rw [if_pos hlen]
      · rw [if_neg hlen] at h
        cases h
  | skip len =>
      simp only [perform, change, run_skip] at h ⊢
      by_cases hlen : self.rangeSize < len
      · rw [if_pos hlen]
      · rw [if_neg hlen] at h
        cases h
  | split len =>
      simp only [perform, run_split] at h ⊢
      by_cases hlen : self.rangeSize < len
      · rw [if_pos hlen]
      · rw [if_neg hlen] at h
        cases h
  | readSlice bufLen =>
      simp only [perform, change, run_readSlice] at h ⊢
      by_cases hlen : self.rangeSize < bufLen
      · rw [if_pos hlen]
      · rw [if_neg hlen] at h ⊢
        cases hread : read self.rangeStart bufLen with
        | none => rfl
        | some slice =>
            simp only [hread] at h
            by_cases hslice : slice.length = bufLen
            · rw [if_pos hslice] at h
              cases h
            · rw [if_neg hslice] at h
              cases h

end EndianRangeReadRef

/-! ## Readers and cursors -/

/-- Reads inside `F` succeed. -/
def ReadsOf (F : Bytes) (read : ReadRef) : Prop :=
  ∀ offset size, offset + size ≤ F.length → read offset size = some (slice F offset (offset + size))

/-- A reader stands for the byte slice of a cursor, inside the part from `lo` to `hi`. -/
structure StandsFor (F : Bytes) (lo hi : Nat) (r : EndianRangeReadRef) (c : Cursor) : Prop where
  start : r.rangeStart = c.pos
  size : r.rangeSize = c.bytes.length
  bytes : c.bytes = slice F c.pos (c.pos + c.bytes.length)
  lo : lo ≤ c.pos
  hi : c.pos + c.bytes.length ≤ hi

/-- A part of a file that a slice of the machine can hold. -/
structure IsPart [Target] (F : Bytes) (lo hi : Nat) : Prop where
  inside : hi ≤ F.length
  addressable : F.length < 2 ^ 64
  slice : hi - lo < 2 ^ Target.usizeBits

section StandsFor

variable [Target] {F : Bytes} {lo hi : Nat} {r r' : EndianRangeReadRef} {c c' : Cursor}

omit [Target] in
theorem standsFor_new (F : Bytes) (file : FileContents) (endian : RunTimeEndian) {start size : Nat}
    (h : start + size ≤ F.length) :
    StandsFor F start (start + size) (.new (file.range start size) endian)
      ⟨start, slice F start (start + size)⟩ := by
  have hlen : (slice F start (start + size)).length = size := by
    rw [length_slice h, Nat.add_sub_cancel_left]
  exact ⟨rfl, hlen.symm, by rw [hlen], Nat.le_refl _, by rw [hlen]⟩

omit [Target] in
theorem StandsFor.front (h : StandsFor F lo hi r c) {len : Nat} (hlen : len ≤ c.bytes.length) :
    StandsFor F lo hi (r.front len) (c.front len) := by
  have htake : (c.bytes.take len).length = len := List.length_take_of_le hlen
  refine ⟨h.start, htake.symm, ?_, h.lo, ?_⟩
  · show c.bytes.take len = slice F c.pos (c.pos + (c.bytes.take len).length)
    rw [htake, h.bytes]
    have hcut : slice (slice F c.pos (c.pos + c.bytes.length)) 0 len
        = slice F (c.pos + 0) (c.pos + len) := slice_slice (by omega)
    simpa [slice] using hcut
  · show c.pos + (c.bytes.take len).length ≤ hi
    have hhi := h.hi
    omega

theorem StandsFor.behind (hpart : IsPart F lo hi) (h : StandsFor F lo hi r c) {len : Nat}
    (hlen : len ≤ c.bytes.length) : StandsFor F lo hi (r.behind len) (c.behind len) := by
  have hinside := hpart.inside
  have h64 := hpart.addressable
  have hhi := h.hi
  have hlo := h.lo
  have hdrop : (c.bytes.drop len).length = c.bytes.length - len := List.length_drop
  refine ⟨?_, ?_, ?_, ?_, ?_⟩
  · show u64Add r.rangeStart len = c.pos + len
    rw [h.start, u64Add_of_lt (by omega)]
  · show u64Sub r.rangeSize len = (c.bytes.drop len).length
    rw [h.size, u64Sub_of_le hlen (by omega), hdrop]
  · show c.bytes.drop len = slice F (c.pos + len) (c.pos + len + (c.bytes.drop len).length)
    rw [hdrop, show c.pos + len + (c.bytes.length - len) = c.pos + c.bytes.length by omega]
    have hcut : slice (slice F c.pos (c.pos + c.bytes.length)) len c.bytes.length
        = slice F (c.pos + len) (c.pos + c.bytes.length) := slice_slice (Nat.le_refl _)
    rw [← h.bytes] at hcut
    rw [← hcut, slice, List.take_of_length_le (by rw [hdrop])]
  · show lo ≤ c.pos + len
    omega
  · show c.pos + len + (c.bytes.drop len).length ≤ hi
    omega

/-- A read of the first bytes. -/
theorem StandsFor.read_front (hpart : IsPart F lo hi) (h : StandsFor F lo hi r c) {read : ReadRef}
    (hread : ReadsOf F read) {len : Nat} (hlen : len ≤ c.bytes.length) :
    read r.rangeStart len = some (c.bytes.take len) := by
  have hinside := hpart.inside
  have hhi := h.hi
  rw [h.start, hread _ _ (by omega), h.bytes]
  have hcut : slice (slice F c.pos (c.pos + c.bytes.length)) 0 len
      = slice F (c.pos + 0) (c.pos + len) := slice_slice (by omega)
  rw [Nat.add_zero] at hcut
  rw [← hcut, slice, List.drop_zero, Nat.sub_zero]

theorem StandsFor.toSlice_eq (hpart : IsPart F lo hi) (h : StandsFor F lo hi r c) {read : ReadRef}
    (hread : ReadsOf F read) : r.toSlice read = .ok c.bytes := by
  have hall := h.read_front hpart hread (Nat.le_refl c.bytes.length)
  rw [List.take_length] at hall
  unfold EndianRangeReadRef.toSlice
  rw [h.size, hall]

/-- **THE SEARCH**, from a chunk on, is a search of the rest of the slice. -/
theorem StandsFor.findFrom_eq (hpart : IsPart F lo hi) (h : StandsFor F lo hi r c)
    {read : ReadRef} (hread : ReadsOf F read) (byte : UInt8) {stop : Nat}
    (hstop : stop = c.pos + c.bytes.length) {rounds chunkStart : Nat} (hlo : c.pos ≤ chunkStart)
    (hrounds : stop - chunkStart ≤ rounds) :
    r.findFrom read byte stop rounds chunkStart
      = ((slice F chunkStart stop).findIdx? (· == byte)).elim (.err (.unexpectedEof c.pos))
          (fun i => .ok (chunkStart - c.pos + i)) := by
  have hinside := hpart.inside
  have h64 := hpart.addressable
  have hwidth := hpart.slice
  have hhi := h.hi
  have hlo' := h.lo
  induction rounds generalizing chunkStart with
  | zero =>
      have hempty : slice F chunkStart stop = [] := by
        rw [slice, Nat.sub_eq_zero_of_le (by omega), List.take_zero]
      rw [hempty]
      show Outcome.err (GimliError.unexpectedEof r.rangeStart) = Outcome.err (.unexpectedEof c.pos)
      rw [h.start]
  | succ rounds ih =>
      unfold EndianRangeReadRef.findFrom
      by_cases hmore : chunkStart < stop
      · rw [if_pos hmore, u64Sub_of_le (Nat.le_of_lt hmore) (by omega)]
        -- one chunk, which is not empty and ends inside the slice
        have hsize : 0 < min 4096 (stop - chunkStart) := Nat.lt_min.mpr ⟨by decide, by omega⟩
        have hend : min 4096 (stop - chunkStart) ≤ stop - chunkStart := Nat.min_le_right _ _
        generalize min 4096 (stop - chunkStart) = chunkSize at hsize hend ⊢
        simp only [hread chunkStart chunkSize (by omega)]
        rw [slice_append (show chunkStart ≤ chunkStart + chunkSize by omega)
          (show chunkStart + chunkSize ≤ stop by omega), List.findIdx?_append]
        have hlen : (slice F chunkStart (chunkStart + chunkSize)).length = chunkSize := by
          rw [length_slice (by omega), Nat.add_sub_cancel_left]
        cases hfind : (slice F chunkStart (chunkStart + chunkSize)).findIdx? (· == byte) with
        | some pos =>
            have hpos : pos < chunkSize :=
              hlen ▸ (List.findIdx?_eq_some_iff_getElem.mp hfind).1
            show Outcome.ok (asUsize (asUsize (u64Sub chunkStart r.rangeStart) + pos))
              = Outcome.ok (chunkStart - c.pos + pos)
            rw [h.start, u64Sub_of_le hlo (by omega),
              asUsize_of_lt (show chunkStart - c.pos < 2 ^ Target.usizeBits by omega),
              asUsize_of_lt (by omega)]
        | none =>
            rw [u64Add_of_lt (by omega), ih (by omega) (by omega), hlen]
            cases (slice F (chunkStart + chunkSize) stop).findIdx? (· == byte) with
            | none => rfl
            | some i =>
                refine congrArg Outcome.ok ?_
                show chunkStart + chunkSize - c.pos + i = chunkStart - c.pos + (i + chunkSize)
                omega
      · have hempty : slice F chunkStart stop = [] := by
          rw [slice, Nat.sub_eq_zero_of_le (by omega), List.take_zero]
        rw [if_neg hmore, hempty]
        show Outcome.err (GimliError.unexpectedEof r.rangeStart)
          = Outcome.err (.unexpectedEof c.pos)
        rw [h.start]

theorem StandsFor.find_eq (hpart : IsPart F lo hi) (h : StandsFor F lo hi r c) {read : ReadRef}
    (hread : ReadsOf F read) (byte : UInt8) :
    r.find read byte
      = (c.bytes.findIdx? (· == byte)).elim (.err (.unexpectedEof c.pos)) .ok := by
  have hinside := hpart.inside
  have h64 := hpart.addressable
  have hhi := h.hi
  have hloop := h.findFrom_eq hpart hread byte rfl (Nat.le_refl c.pos)
    (show c.pos + c.bytes.length - c.pos ≤ c.bytes.length by omega)
  rw [← h.bytes] at hloop
  unfold EndianRangeReadRef.find
  rw [h.start, h.size, u64Add_of_lt (by omega), hloop]
  cases c.bytes.findIdx? (· == byte) with
  | none => rfl
  | some i =>
      refine congrArg Outcome.ok ?_
      omega

/-! ## Operations on both -/

/-- The same answer, a reader and a cursor that go together, and as many new ones. -/
structure Alike (F : Bytes) (lo hi : Nat)
    (x : ReaderAnswer × EndianRangeReadRef × Option EndianRangeReadRef)
    (y : ReaderAnswer × Cursor × Option Cursor) : Prop where
  answer : x.1 = y.1
  self : StandsFor F lo hi x.2.1 y.2.1
  new : Option.Rel (StandsFor F lo hi) x.2.2 y.2.2

omit [Target] in
theorem Alike.of_answer (h : StandsFor F lo hi r c) {x y : ReaderAnswer} (hxy : x = y) :
    Alike F lo hi (x, r, none) (y, c, none) := ⟨hxy, h, .none⟩

omit [Target] in
theorem Alike.of_value (h : StandsFor F lo hi r c) {v w : ReaderValue} (hvw : v = w) :
    Alike F lo hi (.ok v, r, none) (.ok w, c, none) := .of_answer h (congrArg Outcome.ok hvw)

omit [Target] in
/-- Both are at the end of their bytes. -/
theorem Alike.unexpectedEof (h : StandsFor F lo hi r c) :
    Alike F lo hi (.err (.unexpectedEof r.rangeStart), r, none) c.unexpectedEof :=
  .of_answer h (by rw [h.start])

/-- A distance inside the part. -/
theorem StandsFor.asUsize_sub (hpart : IsPart F lo hi) (h : StandsFor F lo hi r c) {pos pos' : Nat}
    (hlo : lo ≤ pos') (hle : pos' ≤ pos) (hhi : pos ≤ c.pos + c.bytes.length) :
    asUsize (u64Sub pos pos') = pos - pos' := by
  have hinside := hpart.inside
  have h64 := hpart.addressable
  have hwidth := hpart.slice
  have hend := h.hi
  rw [u64Sub_of_le hle (by omega), asUsize_of_lt (by omega)]

/-- **ONE OPERATION** does the same to a reader and to the cursor it stands for. -/
theorem perform_alike (hpart : IsPart F lo hi) (h : StandsFor F lo hi r c)
    (h' : StandsFor F lo hi r' c') {read : ReadRef} (hread : ReadsOf F read) (op : ReaderOp)
    (hbase : op = .offsetFrom → c'.pos ≤ c.pos) :
    Alike F lo hi (EndianRangeReadRef.perform (op, read) r r')
      (Cursor.perform (op, read) c c') := by
  have hinside := hpart.inside
  have h64 := hpart.addressable
  have hwidth := hpart.slice
  have hhi := h.hi
  have hlo := h.lo
  -- first the operations that only look: one value on both sides
  cases op with
  | len =>
      refine Alike.of_value h (congrArg ReaderValue.offset ?_)
      show asUsize r.rangeSize = c.bytes.length
      rw [h.size, asUsize_of_lt (by omega)]
  | isEmpty =>
      refine Alike.of_value h (congrArg ReaderValue.flag ?_)
      show (r.rangeSize == 0) = c.bytes.isEmpty
      rw [h.size]
      cases c.bytes <;> rfl
  | empty => exact ⟨rfl, h.front (Nat.zero_le _), .none⟩
  | offsetFrom =>
      refine Alike.of_value h (congrArg ReaderValue.offset ?_)
      show asUsize (u64Sub r.rangeStart r'.rangeStart) = c.pos - c'.pos
      rw [h.start, h'.start]
      exact h.asUsize_sub hpart h'.lo (hbase rfl) (Nat.le_add_right _ _)
  | offsetId => exact Alike.of_value h (congrArg ReaderValue.offset h.start)
  | toSlice => exact Alike.of_answer h (by rw [h.toSlice_eq hpart hread]; rfl)
  | toString =>
      refine Alike.of_answer h ?_
      rw [EndianRangeReadRef.toString, h.toSlice_eq hpart hread, Outcome.ok_bind]
      cases fromUtf8 c.bytes with
      | some s => rfl
      | none => rfl
  | toStringLossy =>
      refine Alike.of_answer h ?_
      rw [EndianRangeReadRef.toStringLossy, h.toSlice_eq hpart hread]
      rfl
  | lookupOffsetId id =>
      refine Alike.of_value h (congrArg ReaderValue.lookup ?_)
      unfold EndianRangeReadRef.lookupOffsetId
      rw [h.start, h.size, u64Add_of_lt (by omega)]
      by_cases hid : c.pos ≤ id ∧ id ≤ c.pos + c.bytes.length
      · rw [if_pos hid, if_pos hid, h.asUsize_sub hpart hlo hid.1 hid.2]
      · rw [if_neg hid, if_neg hid]
  | find byte =>
      simp only [EndianRangeReadRef.perform, EndianRangeReadRef.look, Cursor.perform,
        h.find_eq hpart hread byte]
      cases c.bytes.findIdx? (· == byte) with
      | some i => exact Alike.of_value h rfl
      | none => exact Alike.of_answer h rfl
  | truncate len =>
      simp only [EndianRangeReadRef.perform, EndianRangeReadRef.change,
        EndianRangeReadRef.run_truncate, Cursor.perform, h.size]
      by_cases hlen : len ≤ c.bytes.length
      · -- the front of the window is what the cursor keeps
        rw [if_neg (Nat.not_lt.mpr hlen), if_pos hlen]
        exact ⟨rfl, h.front hlen, .none⟩
      · rw [if_pos (Nat.lt_of_not_le hlen), if_neg hlen]
        exact Alike.unexpectedEof h
  | skip len =>
      simp only [EndianRangeReadRef.perform, EndianRangeReadRef.change,
        EndianRangeReadRef.run_skip, Cursor.perform, h.size]
      by_cases hlen : len ≤ c.bytes.length
      · rw [if_neg (Nat.not_lt.mpr hlen), if_pos hlen]
        exact ⟨rfl, h.behind hpart hlen, .none⟩
      · rw [if_pos (Nat.lt_of_not_le hlen), if_neg hlen]
        exact Alike.unexpectedEof h
  | split len =>
      simp only [EndianRangeReadRef.perform, EndianRangeReadRef.run_split, Cursor.perform, h.size]
      by_cases hlen : len ≤ c.bytes.length
      · rw [if_neg (Nat.not_lt.mpr hlen), if_pos hlen]
        exact ⟨rfl, h.behind hpart hlen, .some (h.front hlen)⟩
      · rw [if_pos (Nat.lt_of_not_le hlen), if_neg hlen]
        exact Alike.unexpectedEof h
  | readSlice bufLen =>
      simp only [EndianRangeReadRef.perform, EndianRangeReadRef.change,
        EndianRangeReadRef.run_readSlice, Cursor.perform, h.size]
      by_cases hlen : bufLen ≤ c.bytes.length
      · rw [if_neg (Nat.not_lt.mpr hlen), if_pos hlen]
        -- the buffer has the length that was read, so the copy does not panic
        simp only [h.read_front hpart hread hlen, List.length_take_of_le hlen, if_pos]
        exact ⟨rfl, h.behind hpart hlen, .none⟩
      · rw [if_pos (Nat.lt_of_not_le hlen), if_neg hlen]
        exact Alike.unexpectedEof h

/-- What comes out of an operation goes together, also where a base lies behind. -/
theorem simulates (hpart : IsPart F lo hi) :
    Perform.Simulates (StandsFor F lo hi) (fun op => ReadsOf F op.2) EndianRangeReadRef.perform
      Cursor.perform where
  self := by
    rintro ⟨op, read⟩ r r' c c' hread h h'
    by_cases hop : op = .offsetFrom
    · subst hop
      exact h
    · exact (perform_alike hpart h h' hread op (fun heq => absurd heq hop)).self
  new := by
    rintro ⟨op, read⟩ r r' c c' hread h h'
    by_cases hop : op = .offsetFrom
    · subst hop
      exact .none
    · exact (perform_alike hpart h h' hread op (fun heq => absurd heq hop)).new

end StandsFor

/-! ## Readers of a section -/

/-- Where an offset is asked for, the base lies at or before the reader. -/
def BaseBefore (slices : List Cursor) (a : Action (ReaderOp × ReadRef)) : Prop :=
  a.op.1 = .offsetFrom → ∀ c base, slices[a.self]? = some c → slices[a.other]? = some base →
    base.pos ≤ c.pos

/-- **READERS ARE SLICES**: over any part of a file that a slice can hold, whatever
    was done with the readers before, an operation answers as on byte slices, and the
    readers go on standing for these.  An operation that answers with an error leaves
    any readers as they are, whatever the file answers. -/
theorem readers_are_slices [Target] (F : Bytes) (hF64 : F.length < 2 ^ 64) (file : FileContents)
    (endian : RunTimeEndian) (start size : Nat) (hrange : start + size ≤ F.length)
    (hslice : size < 2 ^ Target.usizeBits) :
    (∀ (before : List (Action (ReaderOp × ReadRef))) (a : Action (ReaderOp × ReadRef)),
      (∀ b ∈ before, ReadsOf F b.op.2) → ReadsOf F a.op.2 →
      let readers := Perform.run EndianRangeReadRef.perform
        [.new (file.range start size) endian] before
      let slices := Perform.run Cursor.perform [⟨start, slice F start (start + size)⟩] before
      (BaseBefore slices a →
        (Perform.step EndianRangeReadRef.perform a readers).1
          = (Perform.step Cursor.perform a slices).1) ∧
      List.Forall₂ (StandsFor F start (start + size))
        (Perform.step EndianRangeReadRef.perform a readers).2
        (Perform.step Cursor.perform a slices).2) ∧
    ∀ (readers : List EndianRangeReadRef) (a : Action (ReaderOp × ReadRef)) (e : GimliError),
      (Perform.step EndianRangeReadRef.perform a readers).1 = some (.err e) →
      (Perform.step EndianRangeReadRef.perform a readers).2 = readers := by
  have hpart : IsPart F start (start + size) :=
    ⟨hrange, hF64, by rw [Nat.add_sub_cancel_left]; exact hslice⟩
  refine ⟨?_, ?_⟩
  · intro before a hbefore ha readers slices
    have hrel : List.Forall₂ (StandsFor F start (start + size)) readers slices :=
      (simulates hpart).run (.cons (standsFor_new F file endian hrange) .nil) hbefore
    refine ⟨fun hbase => ?_, (simulates hpart).step hrel ha⟩
    refine Perform.step_answer hrel ?_
    intro r r' c c' hc hc' hr hr'
    exact (perform_alike hpart hr hr' ha a.op.1 (fun hop => hbase hop c c' hc hc')).answer
  · intro readers a e hanswer
    refine Perform.step_unchanged (fun answer => answer = .err e) ?_ hanswer rfl
    exact fun op self other herr => EndianRangeReadRef.perform_err op self other herr

/-- Two bytes split off a section of four, and a nul byte looked for in the rest. -/
theorem readers_are_slices_four_bytes :
    let _ : Target := ⟨64⟩
    let F : Bytes := [7, 1, 2, 0, 5]
    let read : ReadRef := fun o s => if o + s ≤ F.length then some (slice F o (o + s)) else none
    (Perform.step EndianRangeReadRef.perform ⟨(.find 0, read), 0, 0⟩
      (Perform.run EndianRangeReadRef.perform
        [.new ((FileContents.ofBytes F).range 1 4) .little] [⟨(.split 2, read), 0, 0⟩])).1
      = some (.ok (.offset 0)) := by
  intro _ F read
  have hread : ReadsOf F read := fun _ _ h => if_pos h
  refine (((readers_are_slices F (by decide) (.ofBytes F) .little 1 4 (by decide)
    (by decide)).1 [⟨(.split 2, read), 0, 0⟩] ⟨(.find 0, read), 0, 0⟩ ?_ hread).1 ?_).trans ?_
  · intro b hb
    rw [List.mem_singleton.mp hb]
    exact hread
  · intro hop
    cases hop
  · decide

end ProfilerGetSymbols
