import ProfilerGetSymbols.Demangle
import ProfilerGetSymbols.ProgLib.HashMap

/-! # Looked-up addresses — the answer for a set of addresses

    `LookedUpAddresses` holds one slot for every requested address.  A symbol
    fills the slot, debug info adds its frames and may replace the name.  The
    slots themselves never change: an update of an address that was not
    requested is a panic, and every other update keeps the keys. -/

namespace ProfilerGetSymbols

open ProgLib Demangle

structure AddressResult where
  symbolAddress : Nat
  symbolName : String
  functionSize : Option Nat
  inlineFrames : Option (List InlineStackFrame)

abbrev AddressResults := HashMap Nat (Option AddressResult)

structure LookedUpAddresses where
  addressResults : AddressResults
  symbolCount : Nat

namespace LookedUpAddresses

variable {ε : Type}

def forAddresses (addresses : List Nat) : LookedUpAddresses :=
  ⟨HashMap.ofList (addresses.map (fun address => (address, none))), 0⟩

/-- Write the slot of an address. -/
def setSlot (result : LookedUpAddresses) (address : Nat) (slot : AddressResult) :
    LookedUpAddresses :=
  { result with addressResults := result.addressResults.insert address (some slot) }

/-- The slot of an address with a symbol in it. -/
def symbolResult (symbolAddress : Nat) (symbolName : String) (functionSize : Option Nat) :
    AddressResult :=
  ⟨symbolAddress, symbolName, functionSize, none⟩

def addAddressSymbol [Crates] (result : LookedUpAddresses) (address symbolAddress : Nat)
    (symbolName : String) (functionSize : Option Nat) : Call ε LookedUpAddresses := do
  let symbolName ← demangleAny symbolName
  let _ ← Outcome.unwrap .addressNotRequested (result.addressResults.get? address)
  return result.setSlot address (symbolResult symbolAddress symbolName functionSize)

/-- The slot of an address once its frames are known. -/
def withFrames (address : Nat) (frames : List InlineStackFrame) :
    Option AddressResult → AddressResult
  | some addressResult =>
      { addressResult with
        symbolName := (frames.getLast?.bind (·.function)).getD addressResult.symbolName
        inlineFrames := some frames }
  | none =>
      { symbolAddress := address
        symbolName := (frames.getLast?.bind (·.function)).getD ("0x" ++ lowerHex address)
        functionSize := none
        inlineFrames := some frames }

def addAddressDebugInfo (result : LookedUpAddresses) (address : Nat) (info : AddressDebugInfo) :
    Call ε LookedUpAddresses := do
  let entry ← Outcome.unwrap .addressNotRequested (result.addressResults.get? address)
  return result.setSlot address (withFrames address info.frames entry)

instance [Crates] : SymbolicationResult LookedUpAddresses where
  fromFullMap _ := .panic .shouldNotBeCalled
  forAddresses addresses := .ok (forAddresses addresses)
  addAddressSymbol := addAddressSymbol
  addAddressDebugInfo := addAddressDebugInfo
  setTotalSymbolCount result totalSymbolCount :=
    .ok { result with symbolCount := totalSymbolCount }

/-! ## The slots -/

/-- `address` has a slot. -/
def Has (result : LookedUpAddresses) (address : Nat) : Prop :=
  (result.addressResults.get? address).isSome

/-- A slot that is there from the start, empty. -/
theorem get?_forAddresses (addresses : List Nat) (address : Nat) :
    (forAddresses addresses).addressResults.get? address
      = if address ∈ addresses then some none else none := by
  have hloop : (forAddresses addresses).addressResults
      = addresses.foldl (fun m a => m.insert (id a) none) HashMap.empty := by
    rw [forAddresses, HashMap.ofList, List.foldl_map]
    rfl
  rw [hloop, HashMap.get?_foldl_insert addresses id (fun _ => none), List.map_id,
    HashMap.get?_empty]

/-- Exactly the requested addresses have a slot. -/
theorem has_forAddresses {addresses : List Nat} {address : Nat} :
    (forAddresses addresses).Has address ↔ address ∈ addresses := by
  rw [Has, get?_forAddresses]
  split
  · next h => simpa using h
  · next h => simpa using h

/-- What a debug info call does: nothing but to fill the address's own slot. -/
theorem addAddressDebugInfo_eq_ok {result result' : LookedUpAddresses} {address : Nat}
    {info : AddressDebugInfo} :
    (addAddressDebugInfo result address info : Call ε _) = .ok result' ↔
      ∃ entry, result.addressResults.get? address = some entry ∧
        result' = result.setSlot address (withFrames address info.frames entry) := by
  unfold addAddressDebugInfo
  rw [Outcome.bind_eq_ok]
  refine exists_congr (fun entry => ?_)
  rw [Outcome.unwrap_eq_ok, Outcome.pure_eq_ok, Outcome.ok.injEq, eq_comm (a := result')]

/-- What a symbol call does. -/
theorem addAddressSymbol_eq_ok [Crates] {result result' : LookedUpAddresses}
    {address symbolAddress : Nat} {symbolName : String} {functionSize : Option Nat} :
    (addAddressSymbol result address symbolAddress symbolName functionSize : Call ε _)
      = .ok result' ↔
      ∃ name, (demangleAny symbolName : Call ε _) = .ok name ∧ result.Has address ∧
        result' = result.setSlot address (symbolResult symbolAddress name functionSize) := by
  unfold addAddressSymbol Has
  rw [Outcome.bind_eq_ok]
  refine exists_congr (fun name => and_congr_right (fun _ => ?_))
  rw [Outcome.bind_eq_ok, Option.isSome_iff_exists]
  constructor
  · rintro ⟨entry, hentry, h⟩
    exact ⟨⟨entry, Outcome.unwrap_eq_ok.mp hentry⟩, (Outcome.ok.inj h).symm⟩
  · rintro ⟨⟨entry, hentry⟩, rfl⟩
    exact ⟨entry, Outcome.unwrap_eq_ok.mpr hentry, rfl⟩

@[simp] theorem get?_setSlot_self (result : LookedUpAddresses) (address : Nat)
    (slot : AddressResult) :
    (result.setSlot address slot).addressResults.get? address = some (some slot) :=
  HashMap.get?_insert_self ..

theorem get?_setSlot_of_ne (result : LookedUpAddresses) {address address' : Nat}
    (slot : AddressResult) (h : address ≠ address') :
    (result.setSlot address slot).addressResults.get? address'
      = result.addressResults.get? address' :=
  HashMap.get?_insert_of_ne _ _ (by simpa using h)

/-- One slot is written, and the others stay. -/
theorem get?_setSlot (result : LookedUpAddresses) (address address' : Nat) (slot : AddressResult) :
    (result.setSlot address slot).addressResults.get? address'
      = if address = address' then some (some slot) else result.addressResults.get? address' := by
  by_cases h : address = address'
  · subst h
    rw [if_pos rfl, get?_setSlot_self]
  · rw [if_neg h, get?_setSlot_of_ne result slot h]

/-- Writing a slot keeps all slots. -/
theorem has_setSlot {result : LookedUpAddresses} {address : Nat} (h : result.Has address)
    (slot : AddressResult) (address' : Nat) :
    (result.setSlot address slot).Has address' ↔ result.Has address' := by
  unfold Has at *
  by_cases ha : address = address'
  · subst ha
    simp [h]
  · rw [get?_setSlot_of_ne result slot ha]

/-! ## Extents -/

/-- Where the function starts that is reported for an address, and its size. -/
def extentAt (result : LookedUpAddresses) (address : Nat) : Option (Nat × Option Nat) :=
  (result.addressResults.get? address).join.map (fun slot => (slot.symbolAddress, slot.functionSize))

theorem extentAt_setSlot (result : LookedUpAddresses) (address address' : Nat)
    (slot : AddressResult) :
    (result.setSlot address slot).extentAt address'
      = if address = address' then some (slot.symbolAddress, slot.functionSize)
        else result.extentAt address' := by
  rw [extentAt, get?_setSlot]
  split
  · rfl
  · rfl

/-- Whatever the one result says about where functions are, so does the other. -/
def KeepsExtents (result result' : LookedUpAddresses) : Prop :=
  ∀ address extent, result.extentAt address = some extent → result'.extentAt address = some extent

theorem KeepsExtents.refl (result : LookedUpAddresses) : KeepsExtents result result :=
  fun _ _ h => h

theorem KeepsExtents.trans {r s t : LookedUpAddresses} (hrs : KeepsExtents r s)
    (hst : KeepsExtents s t) : KeepsExtents r t :=
  fun address extent h => hst address extent (hrs address extent h)

/-- **DEBUG INFO MOVES NO FUNCTION**: frames may give a function another name, and an
    address without one a slot, but a symbol's start and size stay. -/
theorem KeepsExtents.of_addAddressDebugInfo {result result' : LookedUpAddresses} {address : Nat}
    {info : AddressDebugInfo} (h : (addAddressDebugInfo result address info : Call ε _) = .ok result') :
    KeepsExtents result result' := by
  obtain ⟨entry, hentry, rfl⟩ := addAddressDebugInfo_eq_ok.mp h
  intro other extent hextent
  rw [extentAt_setSlot]
  by_cases heq : address = other
  · subst heq
    rw [extentAt, hentry] at hextent
    rw [if_pos rfl]
    cases entry with
    | none => cases hextent
    | some slot => exact hextent
  · rw [if_neg heq]
    exact hextent

/-- **THE SLOTS ARE THERE**: calls about requested addresses never miss one. -/
theorem safe [Crates] (admitted : Panic → Prop) (hmap : admitted .shouldNotBeCalled)
    (hname : admitted .charBoundary) (requested : List Nat) :
    SymbolicationResult.Safe LookedUpAddresses ε admitted requested
      (fun r => ∀ address ∈ requested, r.Has address) where
  fromFullMap _ := hmap
  forAddresses := by
    refine ⟨trivial, ?_⟩
    intro r hr address haddress
    rw [← Outcome.ok.inj hr]
    exact has_forAddresses.mpr haddress
  addAddressSymbol := by
    intro address haddress r symbolAddress symbolName functionSize hr
    constructor
    · refine (settles_demangleAny hname symbolName).bind (fun name _ => ?_)
      obtain ⟨entry, hentry⟩ := Option.isSome_iff_exists.mp (hr address haddress)
      rw [hentry]
      exact trivial
    · intro r' hr' other hother
      obtain ⟨name, -, hhas, rfl⟩ := addAddressSymbol_eq_ok.mp hr'
      exact (has_setSlot hhas _ other).mpr (hr other hother)
  addAddressDebugInfo := by
    intro address haddress r info hr
    obtain ⟨entry, hentry⟩ := Option.isSome_iff_exists.mp (hr address haddress)
    constructor
    · refine Outcome.Settles.bind ?_ (fun _ _ => trivial)
      rw [hentry]
      exact trivial
    · intro r' hr' other hother
      obtain ⟨_, -, rfl⟩ := addAddressDebugInfo_eq_ok.mp hr'
      exact (has_setSlot (hr address haddress) _ other).mpr (hr other hother)
  setTotalSymbolCount := by
    intro r n hr
    refine ⟨trivial, ?_⟩
    intro r' hr'
    rw [← Outcome.ok.inj hr']
    exact hr

end LookedUpAddresses

end ProfilerGetSymbols
