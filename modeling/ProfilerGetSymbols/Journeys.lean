import ProfilerGetSymbols.AddressSplit
import ProfilerGetSymbols.Traversal
import ProfilerGetSymbols.ProgLib.Chain

/-! # Journeys — where an address goes through the object files

    With fixed contents of the object files, a filed address has one way to go.
    It lands where the object file has the function that it is filed under; if
    the object map of that file covers the place, it is filed again, and `next`
    is where.

    The traversal moves lists of addresses at once, and its maps may throw some
    away.  What an object passes on is a part of what `next` says of its
    addresses, and nothing else. -/

namespace ProfilerGetSymbols

open ProgLib Paths ObjectReferences MachO
open scoped List

/-- What is at the paths, by their components. -/
abbrev ObjectFiles := List Bytes → Except String FileContents

/-- The helper opens these files. -/
def Environment.Opens [Platform] (files : ObjectFiles) (env : Environment) : Prop :=
  ∀ path, env.helper.openFile (.path path) = files (Platform.components path)

namespace Journeys

/-! ## One hop -/

/-- The addresses under some functions, each with its function. -/
def filings (functions : FunctionsWithAddresses) : List (Bytes × AddressWithOffset) :=
  functions.entries.flatMap (fun e => e.2.map (fun a => (e.1, a)))

/-- Where some symbols have the function that an address is filed under. -/
def landing (symbols : List ObjectSymbol) (q : Bytes × AddressWithOffset) : Option AddressPair :=
  (symbols.find? (fun symbol => symbol.name.map asBytes = some q.1)).map (fun symbol =>
    ⟨q.2.originalRelativeAddress, u64Add symbol.address q.2.offsetFromFunctionStart⟩)

section Hops

variable [Platform]

/-- Where an object files an address of one of its functions. -/
def refiled (obj : ObjectFile) (f : ObjectMapEntry) (p : AddressPair) : Option FiledAddress :=
  (objectFile obj.objectMap.objects f.objectIndex).map
    (fun file => ⟨file.1, file.2, f.name, withOffset f p⟩)

/-- What an object passes on of some addresses. -/
def passedOn (obj : ObjectFile) (addresses : List AddressPair) : List FiledAddress :=
  (assigned obj addresses).flatMap (fun e => e.2.filterMap (refiled obj e.1))

/-- Where an object files an address that is not out of order. -/
def onward (obj : ObjectFile) (p : AddressPair) : Option FiledAddress :=
  (owner obj p).bind (fun f => refiled obj f p)

variable [Crates]

/-- The part of an object file that a member is. -/
def memberData (contents : FileContents) : Option String → Option RangeReadRef
  | none => some contents.fullRange
  | some nameInArchive => do
      let members ← (Crates.archiveMembers contents).toOption
      let (start, size) ← (HashMap.ofList (members.filterMap id)).get? (asBytes nameInArchive)
      return contents.range start size

/-- Where an object's data has an address filed under one of its functions. -/
def landingIn (data : RangeReadRef) (q : Bytes × AddressWithOffset) :
    Option (ObjectFile × AddressPair) := do
  let obj ← (Crates.parseFile data).toOption
  let p ← landing obj.symbols q
  return (obj, p)

def onwardFrom (data : RangeReadRef) (q : Bytes × AddressWithOffset) : Option FiledAddress :=
  (landingIn data q).bind (fun l => onward l.1 l.2)

/-- Where a filed address is filed next. -/
def next (files : ObjectFiles) (a : FiledAddress) : Option FiledAddress := do
  let contents ← (files a.path).toOption
  let data ← memberData contents a.nameInArchive
  onwardFrom data (a.function, a.address)

end Hops

/-! ## Translation -/

theorem landing_cons_of_ne {symbol : ObjectSymbol} (symbols : List ObjectSymbol)
    {q : Bytes × AddressWithOffset} (h : symbol.name.map asBytes ≠ some q.1) :
    landing (symbol :: symbols) q = landing symbols q := by
  rw [landing, landing, List.find?_cons_of_neg (by simpa using h)]

/-- **TRANSLATION** takes an address to the first symbol with its function's name. -/
theorem translateSymbols_perm (symbols : List ObjectSymbol)
    (functions : FunctionsWithAddresses) :
    translateSymbols symbols functions ~ (filings functions).filterMap (landing symbols) := by
  induction symbols generalizing functions with
  | nil =>
      have hnone : landing [] = fun _ => none := rfl
      simp [translateSymbols, hnone]
  | cons symbol symbols ih =>
      -- an address under another function passes the symbol by
      have hother : ∀ m : FunctionsWithAddresses,
          (∀ e ∈ m.entries, symbol.name.map asBytes ≠ some e.1) →
          (filings m).filterMap (landing (symbol :: symbols))
            = (filings m).filterMap (landing symbols) := by
        intro m hm
        refine List.filterMap_congr ?_
        intro q hq
        obtain ⟨e, he, hqe⟩ := List.mem_flatMap.mp hq
        obtain ⟨a, -, rfl⟩ := List.mem_map.mp hqe
        exact landing_cons_of_ne symbols (hm e he)
      rw [translateSymbols]
      cases hname : symbol.name with
      | none =>
          rw [hother functions (fun e _ => by simp [hname])]
          exact ih functions
      | some symbolName =>
          have hkeys : ∀ e ∈ (functions.remove (asBytes symbolName)).entries,
              symbol.name.map asBytes ≠ some e.1 := by
            intro e he heq
            rw [hname, Option.map_some, Option.some.injEq] at heq
            have := HashMap.key_ne_of_mem_remove he
            rw [heq, beq_self_eq_true] at this
            exact Bool.noConfusion this
          simp only [FunctionsWithAddresses.getAndRemoveAddressesForFunction]
          cases hget : functions.get? (asBytes symbolName) with
          | none =>
              rw [HashMap.remove_of_get?_eq_none hget] at hkeys ⊢
              rw [hother functions hkeys]
              exact ih functions
          | some addresses =>
              obtain ⟨k, hk, hperm⟩ := HashMap.entries_perm_remove hget
              have hsplit : filings functions ~ addresses.map (fun a => (k, a))
                  ++ filings (functions.remove (asBytes symbolName)) := hperm.flatMap_right _
              have hhere : (addresses.map (fun a => (k, a))).filterMap (landing (symbol :: symbols))
                  = addresses.map (fun a => ⟨a.originalRelativeAddress,
                      u64Add symbol.address a.offsetFromFunctionStart⟩) := by
                have hland : landing (symbol :: symbols) ∘ (fun a => (k, a))
                    = fun a => some ⟨a.originalRelativeAddress,
                        u64Add symbol.address a.offsetFromFunctionStart⟩ := by
                  funext a
                  rw [Function.comp_apply, landing,
                    List.find?_cons_of_pos (by simp [hname, eq_of_beq hk])]
                  rfl
                rw [List.filterMap_map, hland, List.filterMap_eq_map']
              refine List.Perm.trans ?_ (hsplit.filterMap _).symm
              rw [List.filterMap_append, hhere, hother _ hkeys]
              exact (ih _).append_left _

theorem translateAddressesToObject_perm (obj : ObjectFile) (functions : FunctionsWithAddresses) :
    translateAddressesToObject obj functions ~ (filings functions).filterMap (landing obj.symbols) :=
  (sortByKey_perm _ _).trans (translateSymbols_perm obj.symbols functions)

theorem translateAddressesToObject_pairwise (obj : ObjectFile)
    (functions : FunctionsWithAddresses) :
    (translateAddressesToObject obj functions).Pairwise
      (fun p q => p.vmaddrInThisObject ≤ q.vmaddrInThisObject) :=
  sortByKey_pairwise _ _

/-! ## What is passed on -/

section PassedOn

variable [Platform] {ε : Type}

theorem flatMap_filedUnder_flushes (obj : ObjectFile) (addresses : List AddressPair) :
    (flushes (assigned obj addresses)).flatMap (filedUnder obj.objectMap.objects)
      = passedOn obj addresses := by
  rw [flushes, List.flatMap_map, passedOn]
  refine List.flatMap_congr ?_
  intro e _
  rw [filedUnder]
  cases hfile : objectFile obj.objectMap.objects e.1.objectIndex with
  | none => simp [refiled, hfile]
  | some file =>
      have hrefiled : refiled obj e.1 = fun p => some ⟨file.1, file.2, e.1.name, withOffset e.1 p⟩ := by
        funext p
        rw [refiled, hfile]
        rfl
      rw [hrefiled, List.filterMap_eq_map']
      exact List.map_map

/-- The members that the outer map names hold what the object passes on, and no more. -/
theorem externalMembers_subperm (obj : ObjectFile) (addresses : List AddressPair) :
    ((externalFunsByObject obj addresses).entries.filterMap
      (member obj.objectMap.objects)).flatMap filedAddresses <+~ passedOn obj addresses := by
  rw [flatMap_filedAddresses, ← flatMap_filedUnder_flushes]
  exact subperm_flatMap _ (triples_subperm obj addresses)

/-- **THE QUEUE GETS NOTHING ELSE** than what the object passes on. -/
theorem filedAddresses_subperm {orders : Orders} {obj : ObjectFile} {addresses : List AddressPair}
    {references : List ObjectReference}
    (h : (objectReferences orders obj.objectMap.objects (externalFunsByObject obj addresses)
      : Call ε _) = .ok references) :
    (references.flatMap members).flatMap filedAddresses <+~ passedOn obj addresses :=
  (subperm_flatMap filedAddresses (members_subperm h)).trans (externalMembers_subperm obj addresses)

/-- Of sorted addresses an object passes on each as if it were alone. -/
theorem passedOn_subperm {obj : ObjectFile} {addresses : List AddressPair}
    (hsorted : addresses.Pairwise (fun p q => p.vmaddrInThisObject ≤ q.vmaddrInThisObject)) :
    passedOn obj addresses <+~ addresses.filterMap (onward obj) := by
  have hassigned : passedOn obj addresses
      = ((assigned obj addresses).flatMap (·.2)).filterMap (onward obj) := by
    rw [passedOn, List.filterMap_flatMap]
    refine List.flatMap_congr ?_
    intro e he
    refine List.filterMap_congr ?_
    intro p hp
    rw [onward, AddressSplit.owner_of_mem_assigned hsorted he hp, Option.bind_some]
  rw [hassigned]
  refine List.Subperm.trans ?_ ((addresses_perm obj addresses).filterMap _).symm.subperm
  rw [List.filterMap_append]
  exact (List.sublist_append_right _ _).subperm

variable [Crates]

/-- What a translated object passes on. -/
theorem passedOn_translate_subperm {data : RangeReadRef} {obj : ObjectFile}
    (hparse : Crates.parseFile data = .ok obj) (functions : FunctionsWithAddresses) :
    passedOn obj (translateAddressesToObject obj functions)
      <+~ (filings functions).filterMap (onwardFrom data) := by
  refine (passedOn_subperm (translateAddressesToObject_pairwise obj functions)).trans ?_
  have honward : onwardFrom data = fun q => (landing obj.symbols q).bind (onward obj) := by
    funext q
    rw [onwardFrom, landingIn, hparse]
    cases hland : landing obj.symbols q with
    | none => simp [Except.toOption, hland]
    | some p => simp [Except.toOption, hland]
  rw [honward, ← List.filterMap_filterMap]
  exact ((translateAddressesToObject_perm obj functions).filterMap _).subperm

end PassedOn

/-! ## What a reference becomes -/

section Members

variable [Platform] [Crates]

omit [Platform] [Crates] in
theorem filedAddresses_eq (m : Member) :
    filedAddresses m = (filings m.2.2).map (fun q => ⟨m.1, m.2.1, q.1, q.2⟩) := by
  rw [filedAddresses, filings, List.map_flatMap]
  refine List.flatMap_congr ?_
  intro e _
  rw [List.map_map]
  rfl

/-- The addresses of a member go on from its data, if the file has it. -/
theorem filterMap_next {files : ObjectFiles} {m : Member} {contents : FileContents}
    (hopen : files m.1 = .ok contents) :
    (filedAddresses m).filterMap (next files)
      = (memberData contents m.2.1).toList.flatMap (fun data =>
          (filings m.2.2).filterMap (onwardFrom data)) := by
  rw [filedAddresses_eq, List.filterMap_map]
  have hnext : ∀ q : Bytes × AddressWithOffset, next files ⟨m.1, m.2.1, q.1, q.2⟩
      = (memberData contents m.2.1).bind (fun data => onwardFrom data q) := by
    intro q
    rw [next, hopen]
    rfl
  cases hdata : memberData contents m.2.1 with
  | none =>
      rw [List.filterMap_eq_nil_iff.mpr]
      · rfl
      · intro q _
        rw [Function.comp_apply, hnext, hdata]
        rfl
  | some data =>
      rw [Option.toList_some, List.flatMap_singleton]
      refine List.filterMap_congr ?_
      intro q _
      rw [Function.comp_apply, hnext, hdata]
      rfl

/-- **THE OBJECTS OF A REFERENCE** are its members, as far as the file has them. -/
theorem intoObjects_perm {orders : Orders} {contents : FileContents} {objRef : ObjectReference}
    {objects : List (RangeReadRef × FunctionsWithAddresses)}
    (h : objRef.intoObjects orders contents = .ok objects) :
    objects ~ (members objRef).filterMap (fun m =>
      (memberData contents m.2.1).map (fun data => (data, m.2.2))) := by
  cases objRef with
  | regular path functions =>
      rw [ObjectReference.intoObjects, Except.ok.injEq] at h
      subst h
      simp [members, memberData]
  | archive path archiveInfo =>
      rw [ObjectReference.intoObjects] at h
      cases hmembers : Crates.archiveMembers contents with
      | error e =>
          rw [hmembers] at h
          cases h
      | ok ms =>
          rw [hmembers] at h
          have hobjects := Except.ok.inj h
          subst hobjects
          -- the order of the archive's map is the only freedom
          refine ((orders.archiveInfo.perm archiveInfo.entries).filterMap _).trans ?_
          rw [members, List.filterMap_map]
          refine List.Perm.of_eq (List.filterMap_congr ?_)
          intro e _
          rw [Function.comp_apply, memberData, hmembers]
          show _ = Option.map (fun data => (data, e.2))
            (((HashMap.ofList (ms.filterMap id)).get? (asBytes e.1)).bind
              (fun r => some (contents.range r.1 r.2)))
          cases (HashMap.ofList (ms.filterMap id)).get? (asBytes e.1) with
          | none => rfl
          | some range => rfl

/-- A reference becomes objects when the file has one of its members. -/
theorem exists_intoObjects (orders : Orders) {contents : FileContents} {objRef : ObjectReference}
    {m : Member} (hm : m ∈ members objRef) (hdata : (memberData contents m.2.1).isSome) :
    ∃ objects, objRef.intoObjects orders contents = .ok objects := by
  cases objRef with
  | regular path functions => exact ⟨_, rfl⟩
  | archive path archiveInfo =>
      obtain ⟨e, -, rfl⟩ := List.mem_map.mp hm
      cases hmembers : Crates.archiveMembers contents with
      | error error =>
          rw [memberData, hmembers] at hdata
          cases hdata
      | ok ms =>
          cases hobjects : (ObjectReference.archive path archiveInfo).intoObjects orders contents with
          | ok objects => exact ⟨objects, rfl⟩
          | error error =>
              rw [ObjectReference.intoObjects, hmembers] at hobjects
              cases hobjects

end Members

end Journeys

end ProfilerGetSymbols
