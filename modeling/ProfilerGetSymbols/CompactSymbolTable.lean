import ProfilerGetSymbols.SymbolicationResult
import ProfilerGetSymbols.ProgLib.SortDedup
import ProfilerGetSymbols.ProgLib.Packed

/-! # The compact symbol table — a lossless encoding of a symbol map

    `CompactSymbolTable` holds the names of all symbols in one buffer, in the
    order of their addresses, with the positions where they begin.  The symbol
    map it is made from lists entries in any order and may give an address
    several names; the last one given counts.

    The list is reversed, sorted stably and deduplicated (`firstByKey`, so that
    the *last* entry of an address survives), and the names that are left are
    packed (`Packed`).  Positions are `u32`: `readBack` is what a reader finds
    under an address in every case, and `readBack_of_lt` says that below 4 GiB
    of names it is the name. -/

namespace ProfilerGetSymbols

open ProgLib

structure CompactSymbolTable where
  addr : List Nat
  index : List Nat
  buffer : Bytes
  deriving DecidableEq, Repr

namespace CompactSymbolTable

variable {ε : Type}

/-- One turn of the loop over the entries. -/
def pushEntry (table : CompactSymbolTable) (entry : Nat × String) : CompactSymbolTable where
  addr := table.addr ++ [entry.1]
  index := table.index ++ [asU32 table.buffer.length]
  buffer := table.buffer ++ asBytes entry.2

def fromFullMap (entries : List (Nat × String)) : CompactSymbolTable :=
  let entries := entries.reverse
  let entries := sortByKey Prod.fst entries
  let entries := dedupByKey Prod.fst entries
  let table := entries.foldl pushEntry ⟨[], [], []⟩
  { table with index := table.index ++ [asU32 table.buffer.length] }

instance : SymbolicationResult CompactSymbolTable where
  fromFullMap map := .ok (fromFullMap map)
  forAddresses _ := .panic .shouldNotBeCalled
  addAddressSymbol _ _ _ _ _ := .panic .shouldNotBeCalled
  addAddressDebugInfo _ _ _ := .panic .shouldNotBeCalled
  setTotalSymbolCount table _ := .ok table

/-! ## Reading a table -/

/-- `&table.buffer[table.index[i] as usize..table.index[i + 1] as usize]`. -/
def symbolBytes (table : CompactSymbolTable) (i : Nat) : Call ε Bytes := do
  let startPos ← Outcome.unwrap .indexOutOfBounds table.index[i]?
  let endPos ← Outcome.unwrap .indexOutOfBounds table.index[i + 1]?
  Outcome.assert .indexOutOfBounds (startPos ≤ endPos)
  Outcome.assert .indexOutOfBounds (endPos ≤ table.buffer.length)
  return slice table.buffer startPos endPos

/-- `std::str::from_utf8(symbol_bytes)?`. -/
def symbolString (table : CompactSymbolTable) (i : Nat) : Call String String := do
  match fromUtf8 (← symbolBytes table i) with
  | some s => return s
  | none => .err "invalid utf-8 sequence"

/-- The lines for the addresses from position `i` on. -/
def dumpFrom (table : CompactSymbolTable) (full : Bool) :
    Nat → List Nat → Call String (List String)
  | _, [] => return []
  | i, address :: rest => do
      if i ≥ 15 ∧ full = false then
        return ["and " ++ toString (table.addr.length - i) ++
          " more symbols. Pass --full to print the full list."]
      else
        let name ← symbolString table i
        let lines ← dumpFrom table full (i + 1) rest
        return (lowerHex address ++ " " ++ name) :: lines

/-- `dump_table`: the lines written. -/
def dumpTable (table : CompactSymbolTable) (full : Bool) : Call String (List String) := do
  let lines ← dumpFrom table full 0 table.addr
  return ("Found " ++ toString table.addr.length ++ " symbols.") :: lines

/-- The table contains an address with a name. -/
def Contains (table : CompactSymbolTable) (address : Nat) (name : String) : Prop :=
  ∃ i, table.addr[i]? = some address ∧ (symbolBytes table i : Call Empty Bytes) = .ok (asBytes name)

/-! ## What the loop builds -/

/-- The entries that survive: for every address the last one given. -/
def keptEntries (entries : List (Nat × String)) : List (Nat × String) :=
  firstByKey Prod.fst entries.reverse

/-- The names of a list of entries, in bytes. -/
def nameBytes (rows : List (Nat × String)) : List Bytes := rows.map (fun row => asBytes row.2)

/-- The name of the last entry whose address is `address`. -/
def lastName (entries : List (Nat × String)) (address : Nat) : Option String :=
  (entries.reverse.find? (fun entry => entry.1 = address)).map Prod.snd

theorem foldl_pushEntry (table : CompactSymbolTable) (rows : List (Nat × String)) :
    rows.foldl pushEntry table =
      { addr := table.addr ++ rows.map Prod.fst
        index := table.index ++ (List.range rows.length).map
          (fun i => asU32 (table.buffer.length + offset (nameBytes rows) i))
        buffer := table.buffer ++ (nameBytes rows).flatten } := by
  induction rows generalizing table with
  | nil => simp [nameBytes]
  | cons row rows ih =>
      rw [List.foldl_cons, ih]
      simp only [pushEntry, nameBytes, List.map_cons, List.length_cons, List.range_succ_eq_map,
        List.map_map, List.flatten_cons, List.append_assoc, List.singleton_append,
        List.length_append, offset_zero, Nat.add_zero, CompactSymbolTable.mk.injEq,
        List.append_cancel_left_eq, List.cons.injEq, true_and, and_true]
      refine List.map_congr_left (fun i _ => ?_)
      rw [Function.comp_apply, offset_cons_succ, Nat.add_assoc]

/-- The table in closed form. -/
theorem fromFullMap_eq (entries : List (Nat × String)) :
    fromFullMap entries =
      { addr := (keptEntries entries).map Prod.fst
        index := (List.range ((keptEntries entries).length + 1)).map
          (fun i => asU32 (offset (nameBytes (keptEntries entries)) i))
        buffer := (nameBytes (keptEntries entries)).flatten } := by
  show (let table := (keptEntries entries).foldl pushEntry ⟨[], [], []⟩
    { table with index := table.index ++ [asU32 table.buffer.length] }) = _
  simp only [foldl_pushEntry, List.nil_append, List.length_nil, Nat.zero_add,
    List.range_succ, List.map_append, List.map_cons, List.map_nil]
  rw [← offset_length, nameBytes, List.length_map]

theorem addr_fromFullMap (entries : List (Nat × String)) :
    (fromFullMap entries).addr = (keptEntries entries).map Prod.fst := by
  rw [fromFullMap_eq]

theorem index_fromFullMap (entries : List (Nat × String)) :
    (fromFullMap entries).index = (List.range ((keptEntries entries).length + 1)).map
      (fun i => asU32 (offset (nameBytes (keptEntries entries)) i)) := by
  rw [fromFullMap_eq]

theorem buffer_fromFullMap (entries : List (Nat × String)) :
    (fromFullMap entries).buffer = (nameBytes (keptEntries entries)).flatten := by
  rw [fromFullMap_eq]

/-- What a reader finds at position `i` of the table made of `rows`. -/
def readAt (rows : List (Nat × String)) (i : Nat) : Option Bytes :=
  let start := asU32 (offset (nameBytes rows) i)
  let stop := asU32 (offset (nameBytes rows) (i + 1))
  if start ≤ stop then some (slice (nameBytes rows).flatten start stop) else none

/-- What a reader finds under an address of the table made of `rows`. -/
def readBack (rows : List (Nat × String)) (address : Nat) : Option Bytes := do
  readAt rows (← rows.findIdx? (fun row => row.1 = address))

theorem asU32_le (n : Nat) : asU32 n ≤ n := Nat.mod_le _ _

/-- The slice a reader takes at a position inside the table. -/
theorem symbolBytes_fromFullMap {entries : List (Nat × String)} {i : Nat}
    (hi : i < (keptEntries entries).length) {bytes : Bytes} :
    (symbolBytes (fromFullMap entries) i : Call ε Bytes) = .ok bytes ↔
      readAt (keptEntries entries) i = some bytes := by
  have hget : ∀ j, j < (keptEntries entries).length + 1 →
      (fromFullMap entries).index[j]?
        = some (asU32 (offset (nameBytes (keptEntries entries)) j)) := by
    intro j hj
    rw [index_fromFullMap, List.getElem?_map, List.getElem?_range hj, Option.map_some]
  have hlen : asU32 (offset (nameBytes (keptEntries entries)) (i + 1))
      ≤ (nameBytes (keptEntries entries)).flatten.length :=
    (asU32_le _).trans (offset_le _ _)
  unfold symbolBytes readAt
  rw [hget i (by omega), hget (i + 1) (by omega), buffer_fromFullMap]
  simp only [Outcome.unwrap, Outcome.ok_bind, Outcome.assert, if_pos hlen]
  split
  · simp
  · simp

/-- Whether a table contains an address with a name is what a reader finds there. -/
theorem contains_fromFullMap {entries : List (Nat × String)} {address : Nat} {name : String} :
    Contains (fromFullMap entries) address name ↔
      readBack (keptEntries entries) address = some (asBytes name) := by
  have haddr : ∀ i : Nat, (fromFullMap entries).addr[i]?
      = ((keptEntries entries)[i]?).map Prod.fst := by
    intro i
    rw [addr_fromFullMap, List.getElem?_map]
  have hsorted : (keptEntries entries).Pairwise (fun a b => a.1 < b.1) :=
    firstByKey_pairwise Prod.fst _
  constructor
  · rintro ⟨i, hi, hbytes⟩
    rw [haddr, Option.map_eq_some_iff] at hi
    obtain ⟨row, hrow, hfst⟩ := hi
    obtain ⟨hlt, heq⟩ := List.getElem?_eq_some_iff.mp hrow
    -- addresses are distinct, so the row of an address is the first with it
    have hidx : (keptEntries entries).findIdx? (fun row => row.1 = address) = some i := by
      rw [List.findIdx?_eq_some_iff_getElem]
      refine ⟨hlt, by simpa [heq] using hfst, ?_⟩
      intro j hj
      have hlt' := List.pairwise_iff_getElem.mp hsorted j i (by omega) hlt hj
      rw [heq, hfst] at hlt'
      simpa using hlt'.ne
    rw [readBack, hidx]
    exact (symbolBytes_fromFullMap hlt).mp hbytes
  · intro h
    rw [readBack, Option.bind_eq_bind, Option.bind_eq_some_iff] at h
    obtain ⟨i, hidx, hread⟩ := h
    obtain ⟨hlt, hfst, -⟩ := List.findIdx?_eq_some_iff_getElem.mp hidx
    refine ⟨i, ?_, (symbolBytes_fromFullMap hlt).mpr hread⟩
    rw [haddr, List.getElem?_eq_getElem hlt]
    simpa using hfst

/-- With less than 4 GiB of names, a reader finds at every position its name. -/
theorem readAt_of_lt {rows : List (Nat × String)} (hfit : (nameBytes rows).flatten.length < 2 ^ 32)
    {i : Nat} {row : Nat × String} (hi : rows[i]? = some row) :
    readAt rows i = some (asBytes row.2) := by
  have hchunk : (nameBytes rows)[i]? = some (asBytes row.2) := by
    rw [nameBytes, List.getElem?_map, hi, Option.map_some]
  have hbound : ∀ j, offset (nameBytes rows) j < 2 ^ 32 :=
    fun j => lt_of_le_of_lt (offset_le _ j) hfit
  unfold readAt
  simp only [asU32_of_lt (hbound _)]
  rw [if_pos (offset_mono _ (Nat.le_succ i)), slice, offset_succ hchunk, Nat.add_sub_cancel_left,
    drop_take_flatten hchunk]

/-- With less than 4 GiB of names, a reader finds under every address its name. -/
theorem readBack_of_lt {rows : List (Nat × String)}
    (hfit : (nameBytes rows).flatten.length < 2 ^ 32) (address : Nat) :
    readBack rows address
      = (rows.find? (fun row => row.1 = address)).map (fun row => asBytes row.2) := by
  rw [readBack]
  cases hidx : rows.findIdx? (fun row => row.1 = address) with
  | none =>
      rw [List.findIdx?_eq_none_iff] at hidx
      rw [List.find?_eq_none.mpr (fun row hrow => by simpa using hidx row hrow)]
      rfl
  | some i =>
      obtain ⟨hlt, hfst, hbefore⟩ := List.findIdx?_eq_some_iff_getElem.mp hidx
      have hfind : rows.find? (fun row => row.1 = address) = some rows[i] := by
        rw [List.find?_eq_some_iff_getElem]
        exact ⟨hfst, i, hlt, rfl, fun j hj => by simpa using hbefore j hj⟩
      rw [hfind]
      exact readAt_of_lt hfit (List.getElem?_eq_getElem hlt)

/-! ## The encoding is lossless -/

/-- The name that survives at an address is the last one given for it. -/
theorem find?_keptEntries (entries : List (Nat × String)) (address : Nat) :
    ((keptEntries entries).find? (fun row => row.1 = address)).map Prod.snd
      = lastName entries address := by
  rw [keptEntries, find?_firstByKey Prod.fst, lastName]

theorem lastName_of_mem_keptEntries {entries : List (Nat × String)} {row : Nat × String}
    (h : row ∈ keptEntries entries) : lastName entries row.1 = some row.2 := by
  rw [lastName, (mem_firstByKey Prod.fst).mp h, Option.map_some]

/-- The line `dump_table` prints for a row. -/
def line (row : Nat × String) : String := lowerHex row.1 ++ " " ++ row.2

/-- Printing the rest of a table, from any position on. -/
theorem dumpFrom_fromFullMap {entries : List (Nat × String)}
    (hfit : (nameBytes (keptEntries entries)).flatten.length < 2 ^ 32)
    (pre rest : List (Nat × String)) (hrows : keptEntries entries = pre ++ rest) :
    dumpFrom (fromFullMap entries) true pre.length (rest.map Prod.fst)
      = .ok (rest.map line) := by
  induction rest generalizing pre with
  | nil => rfl
  | cons row rest ih =>
      have hget : (keptEntries entries)[pre.length]? = some row := by
        rw [hrows]
        simp
      have hlt : pre.length < (keptEntries entries).length := by
        rw [hrows]
        simp
      have hbytes : (symbolBytes (fromFullMap entries) pre.length : Call String Bytes)
          = .ok (asBytes row.2) :=
        (symbolBytes_fromFullMap hlt).mpr (readAt_of_lt hfit hget)
      have hstring : symbolString (fromFullMap entries) pre.length = .ok row.2 := by
        rw [symbolString, hbytes, Outcome.ok_bind, fromUtf8_asBytes]
        rfl
      have htail := ih (pre ++ [row]) (by simp [hrows])
      rw [List.length_append, List.length_singleton] at htail
      rw [List.map_cons, dumpFrom, if_neg (by simp), hstring, Outcome.ok_bind, htail]
      rfl

/-- With less than 4 GiB of names, the positions are the exact offsets. -/
theorem index_fromFullMap_of_lt {entries : List (Nat × String)}
    (hfit : (nameBytes (keptEntries entries)).flatten.length < 2 ^ 32) :
    (fromFullMap entries).index = (List.range ((keptEntries entries).length + 1)).map
      (offset (nameBytes (keptEntries entries))) := by
  rw [index_fromFullMap]
  refine List.map_congr_left ?_
  intro j _
  exact asU32_of_lt ((offset_le _ j).trans_lt hfit)

/-- A row's name stands in the buffer between two offsets. -/
theorem slice_buffer_fromFullMap {entries : List (Nat × String)}
    (hfit : (nameBytes (keptEntries entries)).flatten.length < 2 ^ 32) {i : Nat}
    {row : Nat × String} (hrow : (keptEntries entries)[i]? = some row) :
    slice (fromFullMap entries).buffer (offset (nameBytes (keptEntries entries)) i)
      (offset (nameBytes (keptEntries entries)) (i + 1)) = asBytes row.2 := by
  have hread := readAt_of_lt hfit hrow
  have hbound : ∀ j, asU32 (offset (nameBytes (keptEntries entries)) j)
      = offset (nameBytes (keptEntries entries)) j :=
    fun j => asU32_of_lt ((offset_le _ j).trans_lt hfit)
  simp only [readAt, hbound] at hread
  rw [if_pos (offset_mono _ (Nat.le_succ i)), Option.some.injEq] at hread
  rw [buffer_fromFullMap]
  exact hread

/-- The printed table lists the rows. -/
theorem dumpTable_fromFullMap {entries : List (Nat × String)}
    (hfit : (nameBytes (keptEntries entries)).flatten.length < 2 ^ 32) :
    dumpTable (fromFullMap entries) true
      = .ok (("Found " ++ toString (keptEntries entries).length ++ " symbols.")
        :: (keptEntries entries).map line) := by
  have hdump := dumpFrom_fromFullMap hfit [] (keptEntries entries) rfl
  rw [List.length_nil] at hdump
  rw [dumpTable, addr_fromFullMap, hdump, Outcome.ok_bind, List.length_map]
  rfl

/-- **THE ENCODING IS LOSSLESS** and in its documented format: strictly
    ascending addresses, positions that start at 0, never decrease and end at
    the buffer's length, between two of them the name given last for the
    address, and a printed table that lists just these names. -/
theorem fromFullMap_lossless (entries : List (Nat × String))
    (hfit : (nameBytes (keptEntries entries)).flatten.length < 2 ^ 32) :
    let table := fromFullMap entries
    table.addr.Pairwise (· < ·) ∧
    (∀ address, address ∈ table.addr ↔ address ∈ entries.map Prod.fst) ∧
    table.index.length = table.addr.length + 1 ∧
    table.index.head? = some 0 ∧
    table.index.Pairwise (· ≤ ·) ∧
    table.index.getLast? = some table.buffer.length ∧
    (∀ i address, table.addr[i]? = some address →
      ∃ start stop name, table.index[i]? = some start ∧ table.index[i + 1]? = some stop ∧
        lastName entries address = some name ∧
        slice table.buffer start stop = asBytes name) ∧
    (∃ rows : List (Nat × String), rows.map Prod.fst = table.addr ∧
      (∀ address, (rows.find? (fun row => row.1 = address)).map Prod.snd
        = lastName entries address) ∧
      dumpTable table true
        = .ok (("Found " ++ toString rows.length ++ " symbols.") :: rows.map line)) := by
  intro table
  have haddr : table.addr = (keptEntries entries).map Prod.fst := addr_fromFullMap entries
  have hindex := index_fromFullMap_of_lt hfit
  have hlength : (nameBytes (keptEntries entries)).length = (keptEntries entries).length :=
    List.length_map ..
  refine ⟨?_, ?_, ?_, ?_, ?_, ?_, ?_, ?_⟩
  · rw [haddr, List.pairwise_map]
    exact firstByKey_pairwise Prod.fst _
  · intro address
    rw [haddr, keptEntries, mem_map_firstByKey, List.map_reverse, List.mem_reverse]
  · rw [haddr, hindex]
    simp
  · rw [hindex, List.range_succ_eq_map]
    rfl
  · rw [hindex, List.pairwise_map]
    exact List.pairwise_le_range.imp (fun h => offset_mono _ h)
  · -- the last offset is the length of all names
    rw [hindex, buffer_fromFullMap, List.range_succ, ← offset_length, hlength]
    simp
  · intro i address hi
    rw [haddr, List.getElem?_map, Option.map_eq_some_iff] at hi
    obtain ⟨row, hrow, rfl⟩ := hi
    have hlt : i < (keptEntries entries).length := (List.getElem?_eq_some_iff.mp hrow).1
    refine ⟨offset (nameBytes (keptEntries entries)) i,
      offset (nameBytes (keptEntries entries)) (i + 1), row.2, ?_, ?_, ?_, ?_⟩
    · rw [hindex, List.getElem?_map, List.getElem?_range (by omega), Option.map_some]
    · rw [hindex, List.getElem?_map, List.getElem?_range (by omega), Option.map_some]
    · exact lastName_of_mem_keptEntries (List.mem_of_getElem? hrow)
    · exact slice_buffer_fromFullMap hfit hrow
  · exact ⟨keptEntries entries, haddr.symm, find?_keptEntries entries, dumpTable_fromFullMap hfit⟩

/-- Three entries, two of them at one address. -/
theorem fromFullMap_lossless_three_entries :
    (fromFullMap [(16, "b"), (8, "a"), (16, "c")]).addr.Pairwise (· < ·) ∧
    dumpTable (fromFullMap [(16, "b"), (8, "a"), (16, "c")]) true
      = .ok ["Found 2 symbols.", "8 a", "10 c"] :=
  ⟨(fromFullMap_lossless [(16, "b"), (8, "a"), (16, "c")] (by decide)).1, by decide⟩

end CompactSymbolTable

end ProfilerGetSymbols
