import ProfilerGetSymbols.Paths

/-! # Symbolication results — what a query collects its answer in

    Every query builds its answer through the five methods of one trait: from a
    full symbol map, or for a set of addresses whose data is then supplied call
    by call.  `SymbolicationResult` is that trait.  A method may panic (some
    implementations refuse some of the calls) but has no errors of its own.

    `Recorder` is the implementation that keeps the calls themselves.  What a
    query *reports* is what it records. -/

namespace ProfilerGetSymbols

open Paths

structure InlineStackFrame where
  function : Option String
  filePath : Option FilePath
  lineNumber : Option Nat

/-- The frames of an address, from the innermost inlined function to the outer one. -/
structure AddressDebugInfo where
  frames : List InlineStackFrame

structure DebugId where
  uuid : Bytes
  appendix : Nat
  deriving DecidableEq, Repr

inductive SymbolicationResultKind where
  | allSymbols
  | symbolsForAddresses (addresses : List Nat) (withDebugInfo : Bool)
  deriving DecidableEq, Repr

def SymbolicationResultKind.wantsDebugInfoForAddresses : SymbolicationResultKind → Bool
  | .allSymbols => false
  | .symbolsForAddresses _ withDebugInfo => withDebugInfo

structure SymbolicationQuery where
  debugName : String
  debugId : DebugId
  resultKind : SymbolicationResultKind
  deriving DecidableEq, Repr

class SymbolicationResult (R : Type) where
  fromFullMap {ε : Type} (map : List (Nat × String)) : Call ε R
  forAddresses {ε : Type} (addresses : List Nat) : Call ε R
  addAddressSymbol {ε : Type} (result : R) (address symbolAddress : Nat) (symbolName : String)
    (functionSize : Option Nat) : Call ε R
  addAddressDebugInfo {ε : Type} (result : R) (address : Nat) (info : AddressDebugInfo) : Call ε R
  setTotalSymbolCount {ε : Type} (result : R) (totalSymbolCount : Nat) : Call ε R

/-- The methods keep an invariant of the result and panic at admitted sites only,
    in a query for `requested` that calls them about requested addresses. -/
structure SymbolicationResult.Safe (R ε : Type) [SymbolicationResult R] (admitted : Panic → Prop)
    (requested : List Nat) (I : R → Prop) : Prop where
  fromFullMap : ∀ map, (fromFullMap map : Call ε R).Settles admitted
  forAddresses : (forAddresses requested : Call ε R).Settles admitted ∧
    ∀ r, (forAddresses requested : Call ε R) = .ok r → I r
  addAddressSymbol : ∀ address ∈ requested, ∀ (r : R) symbolAddress symbolName functionSize, I r →
    (addAddressSymbol r address symbolAddress symbolName functionSize : Call ε R).Settles admitted ∧
    ∀ r', (addAddressSymbol r address symbolAddress symbolName functionSize : Call ε R) = .ok r' →
      I r'
  addAddressDebugInfo : ∀ address ∈ requested, ∀ (r : R) info, I r →
    (addAddressDebugInfo r address info : Call ε R).Settles admitted ∧
    ∀ r', (addAddressDebugInfo r address info : Call ε R) = .ok r' → I r'
  setTotalSymbolCount : ∀ (r : R) n, I r → (setTotalSymbolCount r n : Call ε R).Settles admitted ∧
    ∀ r', (setTotalSymbolCount r n : Call ε R) = .ok r' → I r'

/-- A call of one of the trait's methods. -/
inductive ResultCall where
  | fromFullMap (map : List (Nat × String))
  | forAddresses (addresses : List Nat)
  | addAddressSymbol (address symbolAddress : Nat) (symbolName : String)
      (functionSize : Option Nat)
  | addAddressDebugInfo (address : Nat) (info : AddressDebugInfo)
  | setTotalSymbolCount (totalSymbolCount : Nat)

/-- The calls made on a result, in order. -/
structure Recorder where
  calls : List ResultCall

/-- Keep one more call. -/
def Recorder.record (r : Recorder) (call : ResultCall) : Recorder := ⟨r.calls ++ [call]⟩

instance : SymbolicationResult Recorder where
  fromFullMap map := .ok ⟨[.fromFullMap map]⟩
  forAddresses addresses := .ok ⟨[.forAddresses addresses]⟩
  addAddressSymbol r address symbolAddress symbolName functionSize :=
    .ok (r.record (.addAddressSymbol address symbolAddress symbolName functionSize))
  addAddressDebugInfo r address info := .ok (r.record (.addAddressDebugInfo address info))
  setTotalSymbolCount r totalSymbolCount := .ok (r.record (.setTotalSymbolCount totalSymbolCount))

end ProfilerGetSymbols
