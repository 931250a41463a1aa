import ProfilerGetSymbols.SymbolicationResult

/-! # Frames for a single address — the result that the source API asks for

    It keeps the frames of one address.  Symbols are checked and dropped, and a
    call about another address is a panic. -/

namespace ProfilerGetSymbols

open ProgLib

structure FramesForSingleAddress where
  address : Nat
  frames : Option (List InlineStackFrame)

namespace FramesForSingleAddress

variable {ε : Type}

def forAddresses (addresses : List Nat) : Call ε FramesForSingleAddress := do
  Outcome.assert .notASingleAddress (addresses.length = 1)
  let address ← Outcome.unwrap .indexOutOfBounds addresses[0]?
  return ⟨address, none⟩

def addAddressSymbol (result : FramesForSingleAddress) (address : Nat) :
    Call ε FramesForSingleAddress := do
  Outcome.assert .unexpectedAddress (address = result.address)
  return result

def addAddressDebugInfo (result : FramesForSingleAddress) (address : Nat)
    (info : AddressDebugInfo) : Call ε FramesForSingleAddress := do
  Outcome.assert .unexpectedAddress (address = result.address)
  return { result with frames := some info.frames }

instance : SymbolicationResult FramesForSingleAddress where
  fromFullMap _ := .panic .shouldNotBeCalled
  forAddresses := forAddresses
  addAddressSymbol result address _ _ _ := addAddressSymbol result address
  addAddressDebugInfo := addAddressDebugInfo
  setTotalSymbolCount result _ := .ok result

theorem forAddresses_eq_ok {addresses : List Nat} {result : FramesForSingleAddress} :
    (forAddresses addresses : Call ε _) = .ok result ↔
      ∃ address, addresses = [address] ∧ result = ⟨address, none⟩ := by
  rw [forAddresses]
  match addresses with
  | [] => simp [Outcome.assert]
  | [address] => simp [Outcome.assert, Outcome.unwrap, eq_comm]
  | address :: address' :: rest => simp [Outcome.assert]

theorem addAddressSymbol_eq_ok {result result' : FramesForSingleAddress} {address : Nat} :
    (addAddressSymbol result address : Call ε _) = .ok result' ↔
      address = result.address ∧ result' = result := by
  rw [addAddressSymbol, Outcome.bind_eq_ok]
  simp [eq_comm]

theorem addAddressDebugInfo_eq_ok {result result' : FramesForSingleAddress} {address : Nat}
    {info : AddressDebugInfo} :
    (addAddressDebugInfo result address info : Call ε _) = .ok result' ↔
      address = result.address ∧ result' = ⟨result.address, some info.frames⟩ := by
  rw [addAddressDebugInfo, Outcome.bind_eq_ok]
  simp [eq_comm]

/-- **NO UNEXPECTED ADDRESS** in a query for one address. -/
theorem safe {admitted : Panic → Prop} (hmap : admitted .shouldNotBeCalled)
    (hsingle : admitted .notASingleAddress) (hindex : admitted .indexOutOfBounds)
    (requested : List Nat) :
    SymbolicationResult.Safe FramesForSingleAddress ε admitted requested
      (fun r => requested = [r.address]) where
  fromFullMap _ := hmap
  forAddresses := by
    constructor
    · refine (Outcome.settles_assert hsingle _).bind (fun _ _ => ?_)
      exact (Outcome.settles_unwrap hindex _).bind (fun _ _ => trivial)
    · intro r hr
      obtain ⟨address, rfl, rfl⟩ := forAddresses_eq_ok.mp hr
      rfl
  addAddressSymbol := by
    intro address haddress r _ _ _ hr
    -- the one address is the one asked for, so the assert holds
    rw [hr, List.mem_singleton] at haddress
    have hok : (addAddressSymbol r address : Call ε _) = .ok r :=
      addAddressSymbol_eq_ok.mpr ⟨haddress, rfl⟩
    constructor
    · show (addAddressSymbol r address : Call ε _).Settles admitted
      rw [hok]
      exact trivial
    · intro r' hr'
      rw [(addAddressSymbol_eq_ok.mp hr').2]
      exact hr
  addAddressDebugInfo := by
    intro address haddress r info hr
    rw [hr, List.mem_singleton] at haddress
    have hok : (addAddressDebugInfo r address info : Call ε _) = .ok ⟨r.address, some info.frames⟩ :=
      addAddressDebugInfo_eq_ok.mpr ⟨haddress, rfl⟩
    constructor
    · show (addAddressDebugInfo r address info : Call ε _).Settles admitted
      rw [hok]
      exact trivial
    · intro r' hr'
      rw [(addAddressDebugInfo_eq_ok.mp hr').2]
      exact hr
  setTotalSymbolCount := by
    intro r n hr
    refine ⟨trivial, ?_⟩
    intro r' hr'
    rw [← Outcome.ok.inj hr']
    exact hr

end FramesForSingleAddress

end ProfilerGetSymbols
