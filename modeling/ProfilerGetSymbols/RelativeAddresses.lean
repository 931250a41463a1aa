import ProfilerGetSymbols.Elf
import ProfilerGetSymbols.SymbolExtent

/-! # Relative addresses — one base for every source of addresses

    A relative address is an `u32` offset from `relative_address_base`.  Symbols,
    exports, section ends and requested addresses are rebased in the lookup and
    in the full map; function starts and ends come rebased from elsewhere.

    Only the section ends are rebased with checks.  A symbol or an export out of
    reach of the base gets some address in reach instead, at which it does not
    lie, and the starts and ends of `.eh_frame` are cut to 32 bits and never
    rebased.  `rebasesExactly_iff` and `sharesAddressSpace_iff` say when neither
    shows. -/

namespace ProfilerGetSymbols

open ProgLib

namespace Symbols

/-! ## Symbols, exports and requested addresses -/

/-- The address has a relative address. -/
def InReach (obj : ObjectFile) (address : Nat) : Prop :=
  relativeAddressBase obj ≤ address ∧ address < relativeAddressBase obj + 2 ^ 32

instance (obj : ObjectFile) : DecidablePred (InReach obj) :=
  fun _ => inferInstanceAs (Decidable (_ ∧ _))

/-- The distance from the base as an exact integer, where it fits in `u32`. -/
def exactRelativeAddress (obj : ObjectFile) (address : Nat) : Option Nat :=
  if InReach obj address then some (address - relativeAddressBase obj) else none

/-- The full map, had it exact addresses. -/
def exactMap (obj : ObjectFile) (starts : Option (List Nat)) : List (Nat × String) :=
  (starts.getD []).map (fun address => (address, placeholderName address))
  ++ ((obj.dynamicSymbols ++ obj.symbols).filter (·.kind = .text)).filterMap (fun symbol => do
      let name ← symbol.name
      let address ← exactRelativeAddress obj symbol.address
      return (address, name))
  ++ (obj.exports.getD []).filterMap (fun exp => do
      let name ← fromUtf8 exp.name
      let address ← exactRelativeAddress obj exp.address
      return (address, name))

/-- The entries of the lookup, had they exact addresses. -/
def exactEntries (obj : ObjectFile) (starts ends : Option (List Nat)) :
    List (Nat × FullSymbolListEntry) :=
  ((obj.symbols ++ obj.dynamicSymbols).filter (·.kind = .text)).filterMap (fun symbol =>
    (exactRelativeAddress obj symbol.address).map (fun address => (address, .symbol symbol)))
  ++ (obj.exports.getD []).filterMap (fun exp =>
    (exactRelativeAddress obj exp.address).map (fun address => (address, .export exp)))
  ++ (starts.getD []).map (fun address => (address, .synthesized))
  ++ (obj.sections.filter (·.kind = .text)).filterMap
    (fun s => (sectionEndAddress obj s).map (fun address => (address, .endAddress)))
  ++ (ends.getD []).map (fun address => (address, .endAddress))

/-- **EXACT REBASING** of everything that an object and a request hold. -/
structure RebasesExactly (obj : ObjectFile) (starts ends : Option (List Nat))
    (addresses : List Nat) : Prop where
  map : objectToMap obj starts = exactMap obj starts
  entries : fullSymbolList obj starts ends = exactEntries obj starts ends
  /-- A symbol that the lookup keeps lies at the address that it is kept for. -/
  symbolLies : ∀ s symbol, (s, .symbol symbol) ∈ bestEntries obj starts ends →
    symbol.address = relativeAddressBase obj + s
  exportLies : ∀ s exp, (s, .export exp) ∈ bestEntries obj starts ends →
    exp.address = relativeAddressBase obj + s
  /-- The root object's addresses are sums without an overflow. -/
  pairs : Dwarf.makeAddressPairsForRootObject addresses obj
    = addresses.map (fun a => ⟨a, relativeAddressBase obj + a⟩)

/-- Every text symbol, export and requested address is in reach of the base. -/
structure WithinReach (obj : ObjectFile) (addresses : List Nat) : Prop where
  symbols : ∀ symbol ∈ obj.symbols ++ obj.dynamicSymbols, symbol.kind = .text →
    InReach obj symbol.address
  exports : ∀ exp ∈ obj.exports.getD [], InReach obj exp.address
  requested : ∀ a ∈ addresses, relativeAddressBase obj + a < 2 ^ 64

section Exact

variable {obj : ObjectFile}

theorem relativeAddress_of_inReach {address : Nat} (h : InReach obj address) :
    relativeAddress obj address = address - relativeAddressBase obj := by
  obtain ⟨hlo, hhi⟩ := h
  have hsub : u64Sub address (relativeAddressBase obj) = address - relativeAddressBase obj := by
    rw [u64Sub, show 2 ^ 64 + address - relativeAddressBase obj
      = (address - relativeAddressBase obj) + 2 ^ 64 by omega, Nat.add_mod_right]
    exact Nat.mod_eq_of_lt (by omega)
  rw [relativeAddress, hsub]
  exact asU32_of_lt (by omega)

theorem exactRelativeAddress_of_inReach {address : Nat} (h : InReach obj address) :
    exactRelativeAddress obj address = some (relativeAddress obj address) := by
  rw [exactRelativeAddress, if_pos h, relativeAddress_of_inReach h]

theorem isSome_exactRelativeAddress {address : Nat} :
    (exactRelativeAddress obj address).isSome ↔ InReach obj address := by
  rw [exactRelativeAddress]
  split
  · next h => simp [h]
  · next h => simp [h]

variable {addresses : List Nat} {starts ends : Option (List Nat)}

/-- Within reach, the full map is exact. -/
theorem WithinReach.objectToMap_eq (h : WithinReach obj addresses) :
    objectToMap obj starts = exactMap obj starts := by
  have hsymbols : ∀ symbol ∈ (obj.dynamicSymbols ++ obj.symbols).filter (·.kind = .text),
      symbol.name.map (fun name => (relativeAddress obj symbol.address, name))
        = (do
          let name ← symbol.name
          let address ← exactRelativeAddress obj symbol.address
          return (address, name)) := by
    intro symbol hsymbol
    obtain ⟨hmem, hkind⟩ := List.mem_filter.mp hsymbol
    have hreach := h.symbols symbol (by simpa [or_comm] using hmem) (of_decide_eq_true hkind)
    rw [exactRelativeAddress_of_inReach hreach]
    cases symbol.name <;> rfl
  have hexports : ∀ exp ∈ obj.exports.getD [],
      (fromUtf8 exp.name).map (fun name => (relativeAddress obj exp.address, name))
        = (do
          let name ← fromUtf8 exp.name
          let address ← exactRelativeAddress obj exp.address
          return (address, name)) := by
    intro exp hexp
    rw [exactRelativeAddress_of_inReach (h.exports exp hexp)]
    cases fromUtf8 exp.name <;> rfl
  rw [objectToMap, exactMap, List.filterMap_congr hsymbols, List.filterMap_congr hexports]

/-- Within reach, so are the entries of the lookup. -/
theorem WithinReach.fullSymbolList_eq (h : WithinReach obj addresses) :
    fullSymbolList obj starts ends = exactEntries obj starts ends := by
  have hsymbols : ((obj.symbols ++ obj.dynamicSymbols).filter (·.kind = .text)).map
      (fun s => (relativeAddress obj s.address, FullSymbolListEntry.symbol s))
      = ((obj.symbols ++ obj.dynamicSymbols).filter (·.kind = .text)).filterMap (fun symbol =>
        (exactRelativeAddress obj symbol.address).map (fun address => (address, .symbol symbol))) := by
    rw [← List.filterMap_eq_map]
    refine List.filterMap_congr ?_
    intro symbol hsymbol
    obtain ⟨hmem, hkind⟩ := List.mem_filter.mp hsymbol
    rw [exactRelativeAddress_of_inReach (h.symbols symbol hmem (of_decide_eq_true hkind))]
    rfl
  have hexports : (obj.exports.getD []).map
      (fun exp => (relativeAddress obj exp.address, FullSymbolListEntry.export exp))
      = (obj.exports.getD []).filterMap (fun exp =>
        (exactRelativeAddress obj exp.address).map (fun address => (address, .export exp))) := by
    rw [← List.filterMap_eq_map]
    refine List.filterMap_congr ?_
    intro exp hexp
    rw [exactRelativeAddress_of_inReach (h.exports exp hexp)]
    rfl
  rw [fullSymbolList, exactEntries, hsymbols, hexports]

/-- What is out of reach has an entry in the code and none in the exact list, so the
    lists differ in length. -/
theorem inReach_of_fullSymbolList_eq (h : fullSymbolList obj starts ends = exactEntries obj starts ends) :
    (∀ symbol ∈ obj.symbols ++ obj.dynamicSymbols, symbol.kind = .text →
      InReach obj symbol.address) ∧
    ∀ exp ∈ obj.exports.getD [], InReach obj exp.address := by
  rw [fullSymbolList, exactEntries] at h
  -- a list as long as its source has left nothing out
  have hlength := congrArg List.length
    (List.append_cancel_right (List.append_cancel_right (List.append_cancel_right h)))
  rw [List.length_append, List.length_append, List.length_map, List.length_map] at hlength
  have hsymbols := List.length_filterMap_le (fun symbol : ObjectSymbol =>
    (exactRelativeAddress obj symbol.address).map
      (fun address => (address, FullSymbolListEntry.symbol symbol)))
    ((obj.symbols ++ obj.dynamicSymbols).filter (·.kind = .text))
  have hexports := List.length_filterMap_le (fun exp : Export =>
    (exactRelativeAddress obj exp.address).map
      (fun address => (address, FullSymbolListEntry.export exp))) (obj.exports.getD [])
  constructor
  · intro symbol hmem hkind
    have hall := List.filterMap_length_eq_length.mp (by omega :
      (((obj.symbols ++ obj.dynamicSymbols).filter (·.kind = .text)).filterMap (fun symbol =>
        (exactRelativeAddress obj symbol.address).map
          (fun address => (address, FullSymbolListEntry.symbol symbol)))).length
        = ((obj.symbols ++ obj.dynamicSymbols).filter (·.kind = .text)).length)
    have hsome := hall symbol (List.mem_filter.mpr ⟨hmem, decide_eq_true hkind⟩)
    rw [Option.isSome_map] at hsome
    exact isSome_exactRelativeAddress.mp hsome
  · intro exp hexp
    have hall := List.filterMap_length_eq_length.mp (by omega :
      ((obj.exports.getD []).filterMap (fun exp => (exactRelativeAddress obj exp.address).map
        (fun address => (address, FullSymbolListEntry.export exp)))).length
        = (obj.exports.getD []).length)
    have hsome := hall exp hexp
    rw [Option.isSome_map] at hsome
    exact isSome_exactRelativeAddress.mp hsome

/-- An entry of the exact list lies at its address. -/
theorem address_eq_of_exact {address s : Nat} (h : exactRelativeAddress obj address = some s) :
    address = relativeAddressBase obj + s := by
  rw [exactRelativeAddress] at h
  split at h
  · next hreach =>
    have hs := Option.some.inj h
    have hlo := hreach.1
    omega
  · cases h

/-- What the exact list holds of symbols and exports. -/
theorem mem_exactEntries {s : Nat} {entry : FullSymbolListEntry}
    (h : (s, entry) ∈ exactEntries obj starts ends) :
    (∀ symbol, entry = .symbol symbol → symbol.address = relativeAddressBase obj + s) ∧
      ∀ exp, entry = .export exp → exp.address = relativeAddressBase obj + s := by
  rw [exactEntries] at h
  simp only [List.mem_append, List.mem_filterMap, List.mem_map, Option.map_eq_some_iff,
    Prod.mk.injEq] at h
  rcases h with (((⟨symbol, -, s, hs, rfl, rfl⟩ | ⟨exp, -, s, hs, rfl, rfl⟩)
    | ⟨s, -, rfl, rfl⟩) | ⟨section', -, s, -, rfl, rfl⟩) | ⟨s, -, rfl, rfl⟩
  · refine ⟨?_, fun exp hexp => by cases hexp⟩
    rintro _ ⟨⟩
    exact address_eq_of_exact hs
  · refine ⟨(fun symbol hsymbol => by cases hsymbol), ?_⟩
    rintro _ ⟨⟩
    exact address_eq_of_exact hs
  all_goals exact ⟨(fun symbol hsymbol => by cases hsymbol), fun exp hexp => by cases hexp⟩

/-- A kept entry is one of the list. -/
theorem mem_fullSymbolList_of_best {e : Nat × FullSymbolListEntry}
    (h : e ∈ bestEntries obj starts ends) : e ∈ fullSymbolList obj starts ends :=
  List.mem_of_find?_eq_some ((mem_firstByKey Prod.fst).mp h)

/-- The pairs of the root object are exact where the sums do not overflow. -/
theorem makeAddressPairs_eq_iff :
    Dwarf.makeAddressPairsForRootObject addresses obj
        = addresses.map (fun a => ⟨a, relativeAddressBase obj + a⟩) ↔
      ∀ a ∈ addresses, relativeAddressBase obj + a < 2 ^ 64 := by
  rw [Dwarf.makeAddressPairsForRootObject, List.map_inj_left]
  refine forall₂_congr ?_
  intro a _
  rw [AddressPair.mk.injEq, and_iff_right rfl, u64Add]
  constructor
  · intro h
    rw [← h]
    exact Nat.mod_lt _ (by decide)
  · exact Nat.mod_eq_of_lt

/-- **WHEN REBASING IS EXACT**: exactly when every text symbol, every export and
    every requested address is within reach of the base. -/
theorem rebasesExactly_iff (obj : ObjectFile) (starts ends : Option (List Nat))
    (addresses : List Nat) :
    RebasesExactly obj starts ends addresses ↔ WithinReach obj addresses := by
  constructor
  · intro h
    obtain ⟨hsymbols, hexports⟩ := inReach_of_fullSymbolList_eq h.entries
    exact ⟨hsymbols, hexports, makeAddressPairs_eq_iff.mp h.pairs⟩
  · intro h
    have hlies : ∀ s entry, (s, entry) ∈ bestEntries obj starts ends →
        (s, entry) ∈ exactEntries obj starts ends := by
      intro s entry hentry
      rw [← h.fullSymbolList_eq]
      exact mem_fullSymbolList_of_best hentry
    exact
      { map := h.objectToMap_eq
        entries := h.fullSymbolList_eq
        symbolLies := fun s symbol hmem => (mem_exactEntries (hlies s _ hmem)).1 symbol rfl
        exportLies := fun s exp hmem => (mem_exactEntries (hlies s _ hmem)).2 exp rfl
        pairs := makeAddressPairs_eq_iff.mpr h.requested }

end Exact

/-- An executable with its `__TEXT` segment at `0x100000000` and a symbol below it. -/
def symbolBelowBase : ObjectFile :=
  { ObjectFile.bare with
    segments := [⟨some "__TEXT", 0x100000000⟩]
    symbols := [⟨some "f", 0x1000, .text⟩]
    sections := [⟨.text, 0x100000000, 0x4000, none, none, none, fun _ _ => none⟩] }

/-- The symbol at `0x1000` is reported for the address `0x100001234`, 4 GiB above it. -/
theorem not_rebasesExactly_symbolBelowBase :
    ¬ RebasesExactly symbolBelowBase none none [0x1234] ∧
      Reports symbolBelowBase none none [0x1234] 0x1234 0x1000 "f" := by
  constructor
  · intro h
    obtain ⟨hreach, -⟩ := inReach_of_fullSymbolList_eq h.entries
    exact absurd (hreach _ (List.mem_singleton.mpr rfl) rfl) (by decide)
  · exact reports_iff.mpr ⟨by simp, 0x3000, by decide⟩

end Symbols

namespace Elf

open Symbols

/-! ## Function starts and ends -/

/-- An address cut to 32 bits is its distance from the base exactly if the base is cut to 0. -/
theorem asU32_eq_sub_iff {address base : Nat} (hlo : base ≤ address) (hhi : address < base + 2 ^ 32) :
    asU32 address = address - base ↔ 2 ^ 32 ∣ base := by
  rw [asU32]
  omega

/-- The end of a function is cut to 32 bits, whether or not the sum wraps around. -/
theorem asU32_u64Add (a b : Nat) : asU32 (u64Add a b) = asU32 (a + b) := by
  rw [asU32, asU32, u64Add]
  omega

section EhFrame

variable [Crates]

/-- The bounds of the function, relative to the base, fit in `u32`. -/
def FitsRebased (objectFile : ObjectFile) (fde : Fde) : Prop :=
  relativeAddressBase objectFile ≤ fde.initialAddress ∧
    fde.initialAddress + fde.len < relativeAddressBase objectFile + 2 ^ 32

/-- **ONE ADDRESS SPACE** for symbols and for the functions of `.eh_frame`: each FDE
    supplies its bounds as distances from the base, and its start is the relative
    address of any symbol that it starts at. -/
def SharesAddressSpace (objectFile : ObjectFile) : Prop :=
  ∀ (i : Nat) (fde : Fde), (fdes objectFile)[i]? = some fde → FitsRebased objectFile fde →
    (functionStartAndEndAddresses objectFile).1[i]?
        = some (fde.initialAddress - relativeAddressBase objectFile) ∧
      (functionStartAndEndAddresses objectFile).2[i]?
        = some (fde.initialAddress + fde.len - relativeAddressBase objectFile) ∧
      ∀ symbol ∈ objectFile.symbols ++ objectFile.dynamicSymbols,
        symbol.address = fde.initialAddress →
        (functionStartAndEndAddresses objectFile).1[i]? = some (relativeAddress objectFile symbol.address)

/-- **WHEN STARTS AND ENDS ARE REBASED**: exactly when the base is a multiple of `2 ^ 32`
    or no FDE has bounds that fit. -/
theorem sharesAddressSpace_iff (objectFile : ObjectFile) :
    SharesAddressSpace objectFile ↔
      2 ^ 32 ∣ relativeAddressBase objectFile ∨
        ∀ fde ∈ fdes objectFile, ¬ FitsRebased objectFile fde := by
  rw [SharesAddressSpace, functionStartAndEndAddresses]
  constructor
  · intro h
    by_cases hfits : ∃ fde ∈ fdes objectFile, FitsRebased objectFile fde
    · obtain ⟨fde, hfde, hlo, hhi⟩ := hfits
      obtain ⟨i, hi⟩ := List.mem_iff_getElem?.mp hfde
      obtain ⟨hstart, -, -⟩ := h i fde hi ⟨hlo, hhi⟩
      rw [List.getElem?_map, hi, Option.map_some, Option.some.injEq] at hstart
      exact Or.inl ((asU32_eq_sub_iff hlo (by omega)).mp hstart)
    · exact Or.inr (fun fde hfde hfit => hfits ⟨fde, hfde, hfit⟩)
  · rintro (hbase | hnone) i fde hi hfit
    · obtain ⟨hlo, hhi⟩ := hfit
      have hstart : asU32 fde.initialAddress
          = fde.initialAddress - relativeAddressBase objectFile :=
        (asU32_eq_sub_iff hlo (by omega)).mpr hbase
      have hend : asU32 (u64Add fde.initialAddress fde.len)
          = fde.initialAddress + fde.len - relativeAddressBase objectFile := by
        rw [asU32_u64Add]
        exact (asU32_eq_sub_iff (by omega) hhi).mpr hbase
      rw [List.getElem?_map, List.getElem?_map, hi, Option.map_some, Option.map_some, hstart, hend]
      refine ⟨rfl, rfl, ?_⟩
      intro symbol _ haddress
      rw [haddress, relativeAddress_of_inReach ⟨hlo, by omega⟩]
    · exact absurd hfit (hnone fde (List.mem_of_getElem? hi))

end EhFrame

/-! ## A kernel image -/

section Samples

/-- A function of `0x20` bytes behind the start of a kernel's text. -/
local instance : Crates :=
  { Crates.nothing with ehFrameFdes := fun _ => [⟨0xffffffff81000010, 0x20⟩] }

def kernelText : ObjectSection :=
  ⟨.text, 0xffffffff81000000, 0x1000, none, none, none, fun _ _ => none⟩

def kernelEhFrame : ObjectSection :=
  ⟨.other, 0xffffffff82000000, 0x40, none, some [], none, fun _ _ => none⟩

def kernelImage : ObjectFile :=
  { ObjectFile.bare with
    symbols := [⟨some "f", 0xffffffff81000010, .text⟩]
    sectionByName := fun name => if name = ".eh_frame" then some kernelEhFrame else none
    sectionByNameBytes := fun name => if name = asBytes ".text" then some kernelText else none }

/-- Its symbol gets the address `0x10`, its FDE `0x81000010`. -/
theorem not_sharesAddressSpace_kernelImage :
    FitsRebased kernelImage ⟨0xffffffff81000010, 0x20⟩ ∧ ¬ SharesAddressSpace kernelImage := by
  refine ⟨⟨by decide, by decide⟩, ?_⟩
  intro h
  obtain ⟨hstart, -, -⟩ := h 0 ⟨0xffffffff81000010, 0x20⟩ rfl ⟨by decide, by decide⟩
  exact absurd hstart (by decide)

end Samples

end Elf

end ProfilerGetSymbols
