import ProfilerGetSymbols.AddressMatching
import ProfilerGetSymbols.Journeys
import ProfilerGetSymbols.TraversalAddresses
import Mathlib.Logic.Relation

/-! # Address distance — how far an address lies behind the start of its function

    An address that moves into an external object is filed under its function,
    with its distance from the function's start.  In the external object the
    function is found again by its name, and the distance is added to the
    address of the symbol.  So the distance is the same in both objects, at
    every hop, however many hops there are.

    Two things could break it: a distance that does not fit in an `u32`, and a
    sum that does not fit in an `u64`.  A function of less than `2 ^ 32` bytes
    has no such distance; the sum is the external object's affair. -/

namespace ProfilerGetSymbols.AddressDistance

open ProgLib Paths ObjectReferences Journeys
open scoped List

/-! ## One translation -/

/-- The first symbol of an object that bears a function's name. -/
def firstBearer (obj : ObjectFile) (functionName : Bytes) : Option ObjectSymbol :=
  obj.symbols.find? (fun symbol => symbol.name.map asBytes = some functionName)

/-- The addresses of every function whose name is borne, each as far behind the
    first symbol with the name as it is behind its function. -/
def translated (obj : ObjectFile) (functions : FunctionsWithAddresses) : List AddressPair :=
  functions.entries.flatMap (fun e => (firstBearer obj e.1).toList.flatMap (fun symbol =>
    e.2.map (fun a => ⟨a.originalRelativeAddress, symbol.address + a.offsetFromFunctionStart⟩)))

/-- No address with its offset leaves the address space. -/
def Fits (obj : ObjectFile) (functions : FunctionsWithAddresses) : Prop :=
  ∀ e ∈ functions.entries, ∀ symbol, firstBearer obj e.1 = some symbol →
    ∀ a ∈ e.2, symbol.address + a.offsetFromFunctionStart < 2 ^ 64

theorem landing_eq (obj : ObjectFile) (q : Bytes × AddressWithOffset) :
    landing obj.symbols q = (firstBearer obj q.1).map (fun symbol =>
      ⟨q.2.originalRelativeAddress, u64Add symbol.address q.2.offsetFromFunctionStart⟩) := rfl

theorem filterMap_landing {obj : ObjectFile} {functions : FunctionsWithAddresses}
    (hfits : Fits obj functions) :
    (filings functions).filterMap (landing obj.symbols) = translated obj functions := by
  rw [filings, List.filterMap_flatMap, translated]
  refine List.flatMap_congr ?_
  intro e he
  rw [List.filterMap_map]
  cases hbearer : firstBearer obj e.1 with
  | none =>
      rw [Option.toList_none, List.flatMap_nil, List.filterMap_eq_nil_iff]
      intro a _
      rw [Function.comp_apply, landing_eq, hbearer, Option.map_none]
  | some symbol =>
      rw [Option.toList_some, List.flatMap_singleton, ← List.filterMap_eq_map]
      refine List.filterMap_congr ?_
      intro a ha
      rw [Function.comp_apply, landing_eq, hbearer, Option.map_some,
        u64Add_of_lt (hfits e he symbol hbearer a ha)]
      rfl

/-! ## One hop -/

/-- The pair `p'` of an external object is the pair `p` of a referring object
    with these functions: covered by `f`, and taken to `symbol`. -/
structure HandedOn (functions : List ObjectMapEntry) (external : ObjectFile) (p p' : AddressPair)
    (f : ObjectMapEntry) (symbol : ObjectSymbol) : Prop where
  function : f ∈ functions
  covered : Covers f p
  bearer : firstBearer external f.name = some symbol
  original : p'.originalRelativeAddress = p.originalRelativeAddress
  /-- In a function of less than 4 GiB, and without an overflow, the distance is kept. -/
  distance : f.size < 2 ^ 32 →
    symbol.address + (p.vmaddrInThisObject - f.address) < 2 ^ 64 →
    (p'.vmaddrInThisObject : Int) - symbol.address = (p.vmaddrInThisObject : Int) - f.address

/-- A pair of an object is handed on to another object. -/
def Hop (a b : ObjectFile × AddressPair) : Prop :=
  ∃ f symbol, HandedOn a.1.objectMap.symbols b.1 a.2 b.2 f symbol

/-- An address that hits a function lands at the same distance from its symbol. -/
theorem handedOn_of_landing {functions : List ObjectMapEntry} {external : ObjectFile}
    {p p' : AddressPair} {f : ObjectMapEntry} (hf : f ∈ functions) (hhits : Hits f p)
    (hland : landing external.symbols (f.name, withOffset f p) = some p') :
    ∃ symbol, HandedOn functions external p p' f symbol := by
  rw [landing_eq, Option.map_eq_some_iff] at hland
  obtain ⟨symbol, hsymbol, rfl⟩ := hland
  -- the end may wrap around, but an address below the wrapped end is below the end
  have hend : u64Add f.address f.size ≤ f.address + f.size := Nat.mod_le _ _
  have hcovers : Covers f p := ⟨hhits.1, hhits.2.trans_le hend⟩
  refine ⟨symbol, hf, hcovers, hsymbol, rfl, ?_⟩
  intro hsize hsum
  obtain ⟨hlo, hhi⟩ := hcovers
  have hoffset : asU32 (p.vmaddrInThisObject - f.address) = p.vmaddrInThisObject - f.address :=
    asU32_of_lt (by omega)
  have hvmaddr : u64Add symbol.address (withOffset f p).offsetFromFunctionStart
      = symbol.address + (p.vmaddrInThisObject - f.address) := by
    rw [withOffset, hoffset, u64Add_of_lt hsum]
  show ((u64Add symbol.address (withOffset f p).offsetFromFunctionStart : Nat) : Int)
    - symbol.address = _
  rw [hvmaddr]
  omega

/-- What is filed under a name comes from an address that hits a function of that name. -/
theorem exists_hit_of_filed {functions : List ObjectMapEntry} {addresses : List AddressPair}
    {e : Nat × FunctionsWithAddresses} (he : e ∈ (matchFunsToAddresses functions addresses).1.entries)
    {q : Bytes × AddressWithOffset} (hq : q ∈ filings e.2) :
    ∃ p ∈ addresses, ∃ f ∈ functions, Hits f p ∧ f.objectIndex = e.1 ∧ q = (f.name, withOffset f p) := by
  obtain ⟨g, hg, hqg⟩ := List.mem_flatMap.mp hq
  obtain ⟨a, ha, rfl⟩ := List.mem_map.mp hqg
  have hfiled : (e.1, g.1, a) ∈ filedUnderNames (matchFunsToAddresses functions addresses).1 := by
    refine List.mem_flatMap.mpr ⟨(e.1, g.1, g.2), ?_, List.mem_map.mpr ⟨a, ha, rfl⟩⟩
    exact List.mem_flatMap.mpr ⟨e, he, List.mem_map.mpr ⟨g, hg, rfl⟩⟩
  obtain ⟨d, hd, hda⟩ := List.mem_flatMap.mp ((filedUnderNames_subperm _ _).subset hfiled)
  obtain ⟨p, hp, heq⟩ := List.mem_map.mp hda
  obtain ⟨hindex, hrest⟩ := Prod.mk.inj heq
  obtain ⟨hf, -, hhits⟩ := sweep_hit Past Hits hd
  exact ⟨p, mem_of_mem_assigned hd hp, d.1, hf, hhits p hp, hindex, hrest.symm⟩

/-! ## Every depth -/

section Depth

variable [Platform]

/-- The pair of the object goes back to a pair of the root object, hop by hop. -/
def GoesBack (root : ObjectFile) (rootAddresses : List AddressPair) (obj : ObjectFile)
    (p : AddressPair) : Prop :=
  ∃ q ∈ rootAddresses, Relation.ReflTransGen Hop (root, q) (obj, p)

/-- The address was filed under the function by an object that had it. -/
def FiledOnTheWay (root : ObjectFile) (rootAddresses : List AddressPair)
    (q : Bytes × AddressWithOffset) : Prop :=
  ∃ obj p, GoesBack root rootAddresses obj p ∧
    ∃ f ∈ obj.objectMap.symbols, Hits f p ∧ q = (f.name, withOffset f p)

variable {root : ObjectFile} {rootAddresses : List AddressPair}

omit [Platform] in
/-- **TRANSLATION MAKES A HOP** of every filed address. -/
theorem goesBack_of_translate {external : ObjectFile} {functions : FunctionsWithAddresses}
    (hfiled : ∀ q ∈ filings functions, FiledOnTheWay root rootAddresses q) {p' : AddressPair}
    (hp' : p' ∈ translateAddressesToObject external functions) :
    GoesBack root rootAddresses external p' := by
  obtain ⟨q, hq, hland⟩ := List.mem_filterMap.mp
    ((translateAddressesToObject_perm external functions).mem_iff.mp hp')
  obtain ⟨obj, p, ⟨p₀, hp₀, hback⟩, f, hf, hhits, rfl⟩ := hfiled q hq
  obtain ⟨symbol, hhanded⟩ := handedOn_of_landing hf hhits hland
  exact ⟨p₀, hp₀, hback.tail ⟨f, symbol, hhanded⟩⟩

/-- **THE QUEUE** gets addresses of the object that files them. -/
theorem filed_of_objectReferences {ε : Type} {orders : Orders} {obj : ObjectFile}
    {addresses : List AddressPair} {references : List ObjectReference}
    (h : (objectReferences orders obj.objectMap.objects (externalFunsByObject obj addresses)
      : Call ε _) = .ok references)
    (hback : ∀ p ∈ addresses, GoesBack root rootAddresses obj p) {objRef : ObjectReference}
    (hobjRef : objRef ∈ references) {m : Member} (hm : m ∈ members objRef)
    {q : Bytes × AddressWithOffset} (hq : q ∈ filings m.2.2) :
    FiledOnTheWay root rootAddresses q := by
  have hmember : m ∈ references.flatMap members := List.mem_flatMap.mpr ⟨objRef, hobjRef, hm⟩
  obtain ⟨e, he, hem⟩ := List.mem_filterMap.mp ((members_subperm h).subset hmember)
  obtain ⟨file, -, rfl⟩ := Option.map_eq_some_iff.mp hem
  obtain ⟨p, hp, f, hf, hhits, -, rfl⟩ := exists_hit_of_filed he hq
  exact ⟨obj, p, hback p hp, f, (mem_sortByKey _).mp hf, hhits, rfl⟩

variable [Crates] {R : Type}

/-- Whatever a state holds has come from the root object. -/
structure FromRoot (root : ObjectFile) (rootAddresses : List AddressPair) (s : Traversal R) :
    Prop where
  current : ∀ object, s.current = some object →
    ∀ p ∈ object.addresses, GoesBack root rootAddresses object.machoFile p
  objects : ∀ e ∈ s.objects, ∀ q ∈ filings e.2, FiledOnTheWay root rootAddresses q
  references : ∀ objRef ∈ s.remainingObjectReferences, ∀ m ∈ members objRef,
    ∀ q ∈ filings m.2.2, FiledOnTheWay root rootAddresses q

variable [SymbolicationResult R] {env : Environment} {s s' : Traversal R}

/-- **A STEP** brings in nothing from elsewhere. -/
theorem FromRoot.step (hs : FromRoot root rootAddresses s) (h : Traversal.Step env s s') :
    FromRoot root rootAddresses s' := by
  cases h with
  | @lookUp object r queue m hcurrent hcollect =>
      obtain ⟨-, references, hreferences, rfl⟩ := collect_eq_ok.mp hcollect
      refine ⟨(fun object' h => by cases h), hs.objects, ?_⟩
      intro objRef hobjRef m hm q hq
      rcases List.mem_append.mp hobjRef with hold | hnew
      · -- what was queued before came from the root already
        exact hs.references objRef hold m hm q hq
      · exact filed_of_objectReferences hreferences (hs.current object hcurrent) hnew hm hq
  | @parse data functions objects machoFile hcurrent hobjects hparse =>
      have hhead : ∀ q ∈ filings functions, FiledOnTheWay root rootAddresses q :=
        hs.objects (data, functions) (hobjects ▸ List.mem_cons_self ..)
      refine ⟨?_, ?_, hs.references⟩
      · rintro object hobject p hp
        cases hobject
        exact goesBack_of_translate hhead hp
      · intro e he
        exact hs.objects e (hobjects ▸ List.mem_cons_of_mem _ he)
  | @skip objRef references e hcurrent hobjects hqueue hopen =>
      refine ⟨(fun object' h => by cases h), (fun e he => by cases he), ?_⟩
      intro objRef' hobjRef'
      exact hs.references objRef' (hqueue ▸ List.mem_cons_of_mem _ hobjRef')
  | @openFile objRef references contents objects hcurrent hobjects hqueue hopen hinto =>
      refine ⟨(fun object' h => by cases h), ?_, ?_⟩
      · -- an object gets the functions of a member of the reference
        intro e he
        obtain ⟨m, hm, hem⟩ := List.mem_filterMap.mp ((intoObjects_perm hinto).mem_iff.mp he)
        obtain ⟨data, -, rfl⟩ := Option.map_eq_some_iff.mp hem
        exact hs.references objRef (hqueue ▸ List.mem_cons_self ..) m hm
      · intro objRef' hobjRef'
        exact hs.references objRef' (hqueue ▸ List.mem_cons_of_mem _ hobjRef')

/-- **EVERY REACHED STATE** holds addresses that have come from the root. -/
theorem fromRoot_of_reached {r : R} {basePath : BasePath} {data : RangeReadRef}
    {requested : List Nat} (h : Traversal.Reached (.start r basePath data root requested) s) :
    FromRoot root (Dwarf.makeAddressPairsForRootObject requested root) s := by
  refine StepFunction.Reaches.invariant h ⟨?_, ?_, ?_⟩
    (fun _ _ _ _ hs hstep => hs.step (Traversal.Step.of_step hstep))
  · rintro object hobject p hp
    cases hobject
    exact ⟨p, hp, .refl⟩
  · exact fun e he => by cases he
  · exact fun objRef hobjRef => by cases hobjRef

/-- **THE DISTANCE IS KEPT**. -/
structure KeepsDistance (R : Type) [SymbolicationResult R] : Prop where
  /-- Of every function whose name is borne, translation has each address once, and
      it has nothing else. -/
  translated : ∀ (obj : ObjectFile) (functions : FunctionsWithAddresses), Fits obj functions →
    (translateAddressesToObject obj functions).Pairwise
        (fun p q => p.vmaddrInThisObject ≤ q.vmaddrInThisObject) ∧
      translateAddressesToObject obj functions ~ translated obj functions
  /-- Behind the matcher, every translated pair is one that the matcher was given. -/
  handedOn : ∀ (functionSymbols : List ObjectMapEntry) (addresses : List AddressPair)
    (external : ObjectFile), ∀ e ∈ (matchFunsToAddresses functionSymbols addresses).1.entries,
    ∀ p' ∈ translateAddressesToObject external e.2, ∃ p ∈ addresses, ∃ f symbol,
      f.objectIndex = e.1 ∧ HandedOn functionSymbols external p p' f symbol
  /-- At every depth, the pairs of an object come from the root's by such hops. -/
  everyDepth : ∀ (r : R) (basePath : BasePath) (data : RangeReadRef) (root : ObjectFile)
    (requested : List Nat) (s : Traversal R),
    Traversal.Reached (.start r basePath data root requested) s →
    ∀ object, s.current = some object → ∀ p ∈ object.addresses,
      GoesBack root (Dwarf.makeAddressPairsForRootObject requested root) object.machoFile p

/-- Addresses keep their distance from the function start, through any files, any
    object maps and any symbol tables. -/
theorem keepsDistance (R : Type) [SymbolicationResult R] : KeepsDistance R where
  translated := by
    intro obj functions hfits
    refine ⟨translateAddressesToObject_pairwise obj functions, ?_⟩
    rw [← filterMap_landing hfits]
    exact translateAddressesToObject_perm obj functions
  handedOn := by
    intro functionSymbols addresses external e he p' hp'
    obtain ⟨q, hq, hland⟩ := List.mem_filterMap.mp
      ((translateAddressesToObject_perm external e.2).mem_iff.mp hp')
    obtain ⟨p, hp, f, hf, hhits, hindex, rfl⟩ := exists_hit_of_filed he hq
    obtain ⟨symbol, hhanded⟩ := handedOn_of_landing hf hhits hland
    exact ⟨p, hp, f, symbol, hindex, hhanded⟩
  everyDepth := by
    intro r basePath data root requested s hs object hobject
    exact (fromRoot_of_reached hs).current object hobject

end Depth

/-- Two symbols bear the name `f`, and one has no readable name: the first `f` counts,
    and nothing is made of the name `g`. -/
example :
    translateAddressesToObject
        { ObjectFile.bare with symbols :=
            [⟨none, 0x10, .text⟩, ⟨some "f", 0x40, .text⟩, ⟨some "f", 0x20, .text⟩] }
        (.ofList [(asBytes "f", [⟨1, 5⟩, ⟨2, 3⟩]), (asBytes "g", [⟨3, 0⟩])])
      = [⟨2, 0x43⟩, ⟨1, 0x45⟩] := by
  decide

end ProfilerGetSymbols.AddressDistance
