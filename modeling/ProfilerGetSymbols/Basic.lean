import ProfilerGetSymbols.ProgLib.Outcome

/-! # Machine integers, bytes, texts and panics

    Unsigned integers are naturals.  Where the program computes with `+` and `-`
    on `u64` or `u32`, or casts with `as`, the model computes modulo the width,
    as a release build does; a comparison with the exact value is then a lemma
    with a bound, and a place where no bound holds shows up as one.

    A Rust string is its UTF-8 bytes, and so is a Lean one: `asBytes` and
    `fromUtf8` go between the two views. -/

namespace ProfilerGetSymbols

abbrev Bytes := List UInt8

/-- `a + b` on `u64`. -/
def u64Add (a b : Nat) : Nat := (a + b) % 2 ^ 64

/-- `a - b` on `u64`. -/
def u64Sub (a b : Nat) : Nat := (2 ^ 64 + a - b) % 2 ^ 64

/-- `n as u32`. -/
def asU32 (n : Nat) : Nat := n % 2 ^ 32

/-- `a - b` on `u32`. -/
def u32Sub (a b : Nat) : Nat := (2 ^ 32 + a - b) % 2 ^ 32

theorem u64Add_of_lt {a b : Nat} (h : a + b < 2 ^ 64) : u64Add a b = a + b :=
  Nat.mod_eq_of_lt h

theorem u64Sub_of_le {a b : Nat} (h : b ≤ a) (ha : a < 2 ^ 64) : u64Sub a b = a - b := by
  unfold u64Sub
  rw [show 2 ^ 64 + a - b = (a - b) + 2 ^ 64 by omega, Nat.add_mod_right]
  exact Nat.mod_eq_of_lt (by omega)

theorem asU32_of_lt {n : Nat} (h : n < 2 ^ 32) : asU32 n = n := Nat.mod_eq_of_lt h

theorem asU32_lt (n : Nat) : asU32 n < 2 ^ 32 := Nat.mod_lt _ (by decide)

theorem u32Sub_of_le {a b : Nat} (h : b ≤ a) (ha : a < 2 ^ 32) : u32Sub a b = a - b := by
  unfold u32Sub
  rw [show 2 ^ 32 + a - b = (a - b) + 2 ^ 32 by omega, Nat.add_mod_right]
  exact Nat.mod_eq_of_lt (by omega)

/-- The machine the program is compiled for: the width of `usize` in bits,
    64 for a native build and 32 for the WebAssembly one. -/
class Target where
  usizeBits : Nat

/-- `n as usize`. -/
def asUsize [Target] (n : Nat) : Nat := n % 2 ^ Target.usizeBits

theorem asUsize_of_lt [Target] {n : Nat} (h : n < 2 ^ Target.usizeBits) : asUsize n = n :=
  Nat.mod_eq_of_lt h

/-- A half-open `Range<u64>` of file offsets. -/
structure ByteRange where
  start : Nat
  stop : Nat
  deriving DecidableEq, Repr

/-- `bytes[start..stop]`, where the range lies inside. -/
def slice (bytes : Bytes) (start stop : Nat) : Bytes := (bytes.drop start).take (stop - start)

theorem length_slice {bytes : Bytes} {start stop : Nat} (h : stop ≤ bytes.length) :
    (slice bytes start stop).length = stop - start := by
  unfold slice
  rw [List.length_take, List.length_drop]
  omega

/-- A slice of a slice is a slice. -/
theorem slice_slice {bytes : Bytes} {start stop a b : Nat} (h : start + b ≤ stop) :
    slice (slice bytes start stop) a b = slice bytes (start + a) (start + b) := by
  unfold slice
  rw [List.drop_take, List.take_take, List.drop_drop]
  congr 1
  omega

/-- A slice, cut in two. -/
theorem slice_append {bytes : Bytes} {start mid stop : Nat} (h : start ≤ mid) (h' : mid ≤ stop) :
    slice bytes start stop = slice bytes start mid ++ slice bytes mid stop := by
  have hcut := List.take_append_drop (mid - start) ((bytes.drop start).take (stop - start))
  rw [List.take_take, Nat.min_eq_left (by omega), List.drop_take, List.drop_drop] at hcut
  unfold slice
  rw [← hcut, show start + (mid - start) = mid by omega,
    show stop - start - (mid - start) = stop - mid by omega]

/-- Reading a byte of a slice. -/
theorem getElem?_slice {bytes : Bytes} {start stop i : Nat} (h : i < stop - start) :
    (slice bytes start stop)[i]? = bytes[start + i]? := by
  unfold slice
  rw [List.getElem?_take, if_pos h, List.getElem?_drop]

/-! ## Texts -/

/-- `as_bytes`. -/
def asBytes (s : String) : Bytes := s.toUTF8.data.toList

/-- `std::str::from_utf8(bytes).ok()`. -/
def fromUtf8 (bytes : Bytes) : Option String := String.fromUTF8? ⟨bytes.toArray⟩

/-- `format!("{:x}", n)`. -/
def lowerHex (n : Nat) : String := String.ofList (Nat.toDigits 16 n)

theorem asBytes_injective {s t : String} (h : asBytes s = asBytes t) : s = t := by
  have hdata : s.toUTF8.data = t.toUTF8.data := Array.toList_inj.mp h
  exact String.toByteArray_inj.mp (ByteArray.ext hdata)

@[simp] theorem asBytes_inj {s t : String} : asBytes s = asBytes t ↔ s = t :=
  ⟨asBytes_injective, fun h => by rw [h]⟩

theorem fromUtf8_asBytes (s : String) : fromUtf8 (asBytes s) = some s := by
  unfold fromUtf8 asBytes String.fromUTF8?
  rw [Array.toArray_toList]
  exact dif_pos s.isValidUTF8

/-! ## Panics -/

/-- The places where the program panics. -/
inductive Panic where
  /-- `assert!(range.start < range.end)` in `determine_range_sourcing`. -/
  | emptyRange
  /-- `assert!(range.end <= self.file_len)` in `determine_range_sourcing`. -/
  | rangeBeyondFile
  /-- `assert!(read_range.start <= read_range.end)` in `get_range_location`. -/
  | invertedReadRange
  /-- `assert!(buffer.len() == read_len)` in `get_range_location`. -/
  | wrongReadLength
  /-- `RangeMap::insert` refuses a range with `start >= end`. -/
  | emptyRangeInsert
  /-- An index or a slice bound out of range. -/
  | indexOutOfBounds
  /-- A `u64` result out of range, in a build that checks for it. -/
  | arithmeticOverflow
  /-- A string slice off a character boundary. -/
  | charBoundary
  /-- `panic!("Should not be called")`. -/
  | shouldNotBeCalled
  /-- `assert!(addresses.len() == 1, "Should only be used with a single address")`. -/
  | notASingleAddress
  /-- `assert!(address == self.address, "Unexpected address")`. -/
  | unexpectedAddress
  /-- `self.address_results.get_mut(&address).unwrap()`. -/
  | addressNotRequested
  /-- `symbol_map.get(&frame.address).unwrap()`. -/
  | addressNotInSymbolMap
  /-- `expect("inline_frames should always have at least one element")`. -/
  | noInlineFrames
  /-- `std::str::from_utf8(objects[object_index]).unwrap()`. -/
  | objectNameNotUtf8
  /-- `readref.read_bytes_at(0, *size).unwrap()` for a debug section. -/
  | sectionReadFailed
  /-- `assert!(section_name.as_bytes().starts_with(b".debug_"))`. -/
  | notADebugSection
  /-- `function_frames.frames.last().unwrap()` on a PDB lookup. -/
  | noPdbFrames
  /-- `expect("info.path() should have stripped the nul byte")`. -/
  | nulInPdbPath
  /-- `expect("we checked pdb_info above")`. -/
  | noDebugIdInPe
  /-- `clone_from_slice` between slices of different lengths. -/
  | sliceLengthMismatch
  deriving DecidableEq, Repr

/-- A call of the program. -/
abbrev Call (ε α : Type) := ProgLib.Outcome Panic ε α

end ProfilerGetSymbols
