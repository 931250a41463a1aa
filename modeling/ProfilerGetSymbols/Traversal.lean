import ProfilerGetSymbols.LookedUpAddresses
import ProfilerGetSymbols.FramesForSingleAddress
import ProfilerGetSymbols.MachO
import ProfilerGetSymbols.ObjectReferences
import ProfilerGetSymbols.ProgLib.Machine

/-! # Traversal — debug info from the external objects of a mach-O image

    The traversal is a worklist of object references.  It starts with the root
    object; a popped reference is opened and becomes objects, and every object
    takes over its share of the addresses, looks some of them up and files the
    others under further references.

    The state holds every address that is still on its way, and a step moves
    some of them on.  Nothing is assumed of the helper: each step may get other
    answers from it, and other iteration orders of the hash maps. -/

namespace ProfilerGetSymbols

open ProgLib Paths ObjectReferences Dwarf MachO
open scoped List

/-- What the outside decides at a step. -/
structure Environment [Platform] where
  helper : FileAndPathHelper
  orders : Orders

/-- The object whose turn it is, with its addresses. -/
structure CurrentObject where
  data : RangeReadRef
  machoFile : ObjectFile
  addresses : List AddressPair

structure Traversal [Crates] [Platform] (R : Type) where
  symbolicationResult : R
  pathMapper : PathMapper Unit
  remainingObjectReferences : List ObjectReference
  /-- What the reference popped last has become, as far as the inner loop has
      not reached it. -/
  objects : List (RangeReadRef × FunctionsWithAddresses)
  current : Option CurrentObject

namespace Traversal

variable [Crates] [Platform] {R : Type}

section Steps

variable [SymbolicationResult R]

/-- The object at hand is looked up, and its references are queued. -/
def stepCurrent (env : Environment) (s : Traversal R) (object : CurrentObject) :
    Call GetSymbolsError (Option (Traversal R)) := do
  let (symbolicationResult, remainingObjectReferences, pathMapper) ←
    collectDebugInfoAndObjectReferences env.orders object.data object.machoFile object.addresses
      s.symbolicationResult s.remainingObjectReferences s.pathMapper
  return some { s with
    symbolicationResult := symbolicationResult
    pathMapper := pathMapper
    remainingObjectReferences := remainingObjectReferences
    current := none }

/-- The next object of the reference popped last is parsed. -/
def stepObject (s : Traversal R) (data : RangeReadRef) (functions : FunctionsWithAddresses)
    (objects : List (RangeReadRef × FunctionsWithAddresses)) :
    Call GetSymbolsError (Option (Traversal R)) := do
  let machoFile ← Outcome.ofExcept ((Crates.parseFile data).mapError .machOHeaderParseError)
  return some { s with
    objects := objects
    current := some ⟨data, machoFile, translateAddressesToObject machoFile functions⟩ }

/-- The next reference is popped; one that cannot be opened is dropped. -/
def stepReference (env : Environment) (s : Traversal R) (objRef : ObjectReference)
    (remainingObjectReferences : List ObjectReference) :
    Call GetSymbolsError (Option (Traversal R)) := do
  match env.helper.openFile (.path objRef.path) with
  | .error _ => return some { s with remainingObjectReferences := remainingObjectReferences }
  | .ok fileContents =>
      let objects ← Outcome.ofExcept (objRef.intoObjects env.orders fileContents)
      return some { s with
        remainingObjectReferences := remainingObjectReferences
        objects := objects }

/-- One step of the traversal: it is over when nothing is left. -/
def step (env : Environment) (s : Traversal R) : Call GetSymbolsError (Option (Traversal R)) :=
  match s.current with
  | some object => s.stepCurrent env object
  | none =>
  match s.objects with
  | (data, functions) :: objects => s.stepObject data functions objects
  | [] =>
  match s.remainingObjectReferences with
  | objRef :: references => s.stepReference env objRef references
  | [] => return none

/-- The traversal of an object: everything starts from it. -/
def start (symbolicationResult : R) (basePath : BasePath) (data : RangeReadRef)
    (machoFile : ObjectFile) (addresses : List Nat) : Traversal R where
  symbolicationResult := symbolicationResult
  pathMapper := PathMapper.new basePath
  remainingObjectReferences := []
  objects := []
  current := some ⟨data, machoFile, makeAddressPairsForRootObject addresses machoFile⟩

abbrev machine : StepFunction Environment (Traversal R) Panic GetSymbolsError := step

/-- What a step that goes on does, in one of four ways. -/
inductive Step (env : Environment) (s : Traversal R) : Traversal R → Prop
  | lookUp {object : CurrentObject} {r : R} {queue : List ObjectReference} {m : PathMapper Unit} :
      s.current = some object →
      (collectDebugInfoAndObjectReferences env.orders object.data object.machoFile object.addresses
        s.symbolicationResult s.remainingObjectReferences s.pathMapper : Call GetSymbolsError _)
          = .ok (r, queue, m) →
      Step env s ⟨r, m, queue, s.objects, none⟩
  | parse {data : RangeReadRef} {functions : FunctionsWithAddresses}
      {objects : List (RangeReadRef × FunctionsWithAddresses)} {machoFile : ObjectFile} :
      s.current = none → s.objects = (data, functions) :: objects →
      Crates.parseFile data = .ok machoFile →
      Step env s ⟨s.symbolicationResult, s.pathMapper, s.remainingObjectReferences, objects,
        some ⟨data, machoFile, translateAddressesToObject machoFile functions⟩⟩
  | skip {objRef : ObjectReference} {references : List ObjectReference} {e : String} :
      s.current = none → s.objects = [] → s.remainingObjectReferences = objRef :: references →
      env.helper.openFile (.path objRef.path) = .error e →
      Step env s ⟨s.symbolicationResult, s.pathMapper, references, [], none⟩
  | openFile {objRef : ObjectReference} {references : List ObjectReference}
      {fileContents : FileContents} {objects : List (RangeReadRef × FunctionsWithAddresses)} :
      s.current = none → s.objects = [] → s.remainingObjectReferences = objRef :: references →
      env.helper.openFile (.path objRef.path) = .ok fileContents →
      objRef.intoObjects env.orders fileContents = .ok objects →
      Step env s ⟨s.symbolicationResult, s.pathMapper, references, objects, none⟩

/-- **THE FOUR STEPS** are all that a step can do. -/
theorem Step.of_step {env : Environment} {s s' : Traversal R}
    (h : machine env s = .ok (some s')) : Step env s s' := by
  obtain ⟨r, m, queue, objects, current⟩ := s
  -- the innermost of the three loops that has work goes first
  cases current with
  | some object =>
      obtain ⟨⟨r', queue', m'⟩, hcollect, heq⟩ := Outcome.bind_eq_ok.mp h
      obtain rfl := Option.some.inj (Outcome.ok.inj heq)
      exact .lookUp rfl hcollect
  | none =>
      cases objects with
      | cons object objects =>
          obtain ⟨data, functions⟩ := object
          obtain ⟨machoFile, hparse, heq⟩ := Outcome.bind_eq_ok.mp h
          obtain rfl := Option.some.inj (Outcome.ok.inj heq)
          exact .parse rfl rfl (Outcome.ofExcept_mapError_eq_ok.mp hparse)
      | nil =>
          cases queue with
          | nil => cases h
          | cons objRef references =>
              have hstep : stepReference env ⟨r, m, objRef :: references, [], none⟩ objRef references
                  = .ok (some s') := h
              rw [stepReference] at hstep
              split at hstep
              · next e hopen =>
                obtain rfl := Option.some.inj (Outcome.ok.inj hstep)
                exact .skip rfl rfl rfl hopen
              · next fileContents hopen =>
                obtain ⟨objects, hobjects, heq⟩ := Outcome.bind_eq_ok.mp hstep
                obtain rfl := Option.some.inj (Outcome.ok.inj heq)
                exact .openFile rfl rfl rfl hopen (Outcome.ofExcept_eq_ok.mp hobjects)

/-- Each of the four is done where it can be. -/
theorem Step.machine_eq {env : Environment} {s s' : Traversal R} (h : Step env s s') :
    machine env s = .ok (some s') := by
  obtain ⟨r, m, queue, objects, current⟩ := s
  cases h with
  | lookUp hcurrent hcollect =>
      cases hcurrent
      exact Outcome.bind_eq_ok.mpr ⟨_, hcollect, rfl⟩
  | parse hcurrent hobjects hparse =>
      cases hcurrent
      cases hobjects
      exact Outcome.bind_eq_ok.mpr ⟨_, Outcome.ofExcept_mapError_eq_ok.mpr hparse, rfl⟩
  | @skip objRef references e hcurrent hobjects hqueue hopen =>
      cases hcurrent
      cases hobjects
      cases hqueue
      show stepReference env _ objRef references = _
      rw [stepReference, hopen]
      rfl
  | @openFile objRef references contents objects hcurrent hobjects hqueue hopen hinto =>
      cases hcurrent
      cases hobjects
      cases hqueue
      show stepReference env _ objRef references = _
      rw [stepReference, hopen]
      exact Outcome.bind_eq_ok.mpr ⟨_, Outcome.ofExcept_eq_ok.mpr hinto, rfl⟩

end Steps

end Traversal

namespace MachO

/-- The part of a file that the object is: a slice of a fat file, or all of it. -/
def objectRange (fileContents : FileContents) : Option (Nat × Nat) → RangeReadRef
  | some (start, size) => fileContents.range start size
  | none => fileContents.fullRange

variable [Crates] [Platform] (R : Type) [SymbolicationResult R]

/-- `get_symbolication_result`, with fuel for the steps of the traversal. -/
def getSymbolicationResult (envs : Nat → Environment) (fuel : Nat) (basePath : BasePath)
    (fileContents : FileContents) (fileRange : Option (Nat × Nat)) (query : SymbolicationQuery) :
    Call GetSymbolsError R := do
  let range := objectRange fileContents fileRange
  let machoFile ← Outcome.ofExcept ((Crates.parseFile range).mapError .machOHeaderParseError)
  let machoData : MachOData := ⟨range, 0, machoFile.is64⟩
  let symbolicationResult ← getSymbolicationResultFromMachOObject R machoFile machoData query
  match query.resultKind with
  | .symbolsForAddresses addresses true => do
      let traversal ← Traversal.machine.run envs fuel
        (.start symbolicationResult basePath range machoFile addresses)
      return traversal.symbolicationResult
  | _ => return symbolicationResult

end MachO

end ProfilerGetSymbols
