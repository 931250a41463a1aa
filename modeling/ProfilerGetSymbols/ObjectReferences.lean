import ProfilerGetSymbols.Dwarf
import ProfilerGetSymbols.Error
import ProfilerGetSymbols.ProgLib.SortDedup
import ProfilerGetSymbols.ProgLib.Sweep

/-! # Object references — addresses split over external object files

    A linked mach-O image leaves its debug info in the object files it was
    linked from.  Its object map says which function came from which object
    file or archive member, and every address of such a function is filed under
    that function's name in a reference to that file.  The other addresses are
    looked up in the image itself.

    The single pass over functions and addresses is a sweep.  The maps are then
    filled from what it assigns by inserts, and an insert under a key that is
    taken replaces what was there. -/

namespace ProfilerGetSymbols

open ProgLib Paths
open scoped List

structure AddressWithOffset where
  originalRelativeAddress : Nat
  offsetFromFunctionStart : Nat
  deriving DecidableEq, Repr

/-- Addresses by the name of the function they are in. -/
abbrev FunctionsWithAddresses := HashMap Bytes (List AddressWithOffset)

def FunctionsWithAddresses.getAndRemoveAddressesForFunction (functions : FunctionsWithAddresses)
    (symbolName : String) : Option (List AddressWithOffset) × FunctionsWithAddresses :=
  (functions.get? (asBytes symbolName), functions.remove (asBytes symbolName))

inductive ObjectReference [Platform] where
  | regular (path : PathBuf) (functions : FunctionsWithAddresses)
  | archive (path : PathBuf) (archiveInfo : HashMap String FunctionsWithAddresses)

def ObjectReference.path [Platform] : ObjectReference → PathBuf
  | .regular path _ => path
  | .archive path _ => path

/-- The iteration orders of the hash maps of the traversal. -/
structure Orders [Platform] where
  externalFunsByObject : IterOrder (Nat × FunctionsWithAddresses)
  archives : IterOrder (PathBuf × HashMap String FunctionsWithAddresses)
  archiveInfo : IterOrder (String × FunctionsWithAddresses)

namespace ObjectReferences

/-! ## The model -/

/-- The loop over the symbols of an object. -/
def translateSymbols : List ObjectSymbol → FunctionsWithAddresses → List AddressPair
  | [], _ => []
  | symbol :: symbols, functions =>
      match symbol.name with
      | none => translateSymbols symbols functions
      | some symbolName =>
          match functions.getAndRemoveAddressesForFunction symbolName with
          | (none, functions) => translateSymbols symbols functions
          | (some addresses, functions) =>
              addresses.map (fun a => ⟨a.originalRelativeAddress,
                u64Add symbol.address a.offsetFromFunctionStart⟩)
              ++ translateSymbols symbols functions

def translateAddressesToObject (obj : ObjectFile) (functions : FunctionsWithAddresses) :
    List AddressPair :=
  sortByKey (·.vmaddrInThisObject) (translateSymbols obj.symbols functions)

/-- The part of the loop in which `fun_` is the current function: its addresses,
    the internal addresses, and the addresses left when it is over. -/
def matchFun (fun_ : ObjectMapEntry) : List AddressPair → List AddressWithOffset →
    List AddressPair → List AddressWithOffset × List AddressPair × List AddressPair
  | [], curFunAddresses, internalAddresses => (curFunAddresses, internalAddresses, [])
  | addressPair :: addresses, curFunAddresses, internalAddresses =>
      if fun_.address > addressPair.vmaddrInThisObject then
        matchFun fun_ addresses curFunAddresses (internalAddresses ++ [addressPair])
      else if addressPair.vmaddrInThisObject ≥ u64Add fun_.address fun_.size then
        (curFunAddresses, internalAddresses, addressPair :: addresses)
      else
        let offsetFromFunctionStart :=
          asU32 (addressPair.vmaddrInThisObject - fun_.address)
        matchFun fun_ addresses
          (curFunAddresses ++ [⟨addressPair.originalRelativeAddress, offsetFromFunctionStart⟩])
          internalAddresses

/-- `flush_cur_fun`. -/
def flushCurFun (externalFunsByObject : HashMap Nat FunctionsWithAddresses)
    (fun_ : ObjectMapEntry) (addresses : List AddressWithOffset) :
    HashMap Nat FunctionsWithAddresses :=
  if addresses.isEmpty then externalFunsByObject
  else externalFunsByObject.insertIn fun_.objectIndex fun_.name addresses

/-- The loop over the functions; where they end, the remaining addresses are internal. -/
def matchFuns : List ObjectMapEntry → List AddressPair → HashMap Nat FunctionsWithAddresses →
    List AddressPair → HashMap Nat FunctionsWithAddresses × List AddressPair
  | [], addresses, externalFunsByObject, internalAddresses =>
      (externalFunsByObject, internalAddresses ++ addresses)
  | fun_ :: funs, addresses, externalFunsByObject, internalAddresses =>
      match matchFun fun_ addresses [] internalAddresses with
      | (curFunAddresses, internalAddresses, addresses) =>
          matchFuns funs addresses (flushCurFun externalFunsByObject fun_ curFunAddresses)
            internalAddresses

def matchFunsToAddresses (functionSymbols : List ObjectMapEntry) (addresses : List AddressPair) :
    HashMap Nat FunctionsWithAddresses × List AddressPair :=
  matchFuns functionSymbols addresses .empty []

/-- An object name as a path and, for `path(member)`, the name in the archive. -/
def splitObjectName (objectName : String) : PathBuf × Option String :=
  let path := PathBuf.ofString (String.ofList (objectName.toList.takeWhile (· ≠ '(')))
  match objectName.toList.dropWhile (· ≠ '(') with
  | [] => (path, none)
  | parenRest =>
      (path, some (String.ofList ((parenRest.dropWhile (· = '(')).rdropWhile (· = ')'))))

variable [Platform] {ε : Type}

/-- The maps filled by the loop over `external_funs_by_object`. -/
structure Filed where
  references : List ObjectReference
  archives : HashMap PathBuf (HashMap String FunctionsWithAddresses)

/-- One round of the loop over `external_funs_by_object`. -/
def fileUnderObject (objects : List Bytes) (filed : Filed)
    (entry : Nat × FunctionsWithAddresses) : Call ε Filed := do
  let (objectIndex, functions) := entry
  let object ← Outcome.unwrap .indexOutOfBounds objects[objectIndex]?
  let objectName ← Outcome.unwrap .objectNameNotUtf8 (fromUtf8 object)
  match splitObjectName objectName with
  | (path, some nameInArchive) =>
      return { filed with archives := filed.archives.insertIn path nameInArchive functions }
  | (path, none) =>
      return { filed with references := filed.references ++ [.regular path functions] }

/-- The references that an object adds to the queue. -/
def objectReferences (orders : Orders) (objects : List Bytes)
    (externalFunsByObject : HashMap Nat FunctionsWithAddresses) : Call ε (List ObjectReference) := do
  let filed ← (orders.externalFunsByObject.order externalFunsByObject.entries).foldlM
    (fileUnderObject objects) ⟨[], .empty⟩
  return filed.references
    ++ (orders.archives.order filed.archives.entries).map (fun e => .archive e.1 e.2)

/-- The functions of the object map, sorted by address. -/
def objectMapSymbols (obj : ObjectFile) : List ObjectMapEntry :=
  sortByKey (·.address) obj.objectMap.symbols

variable [Crates] {R : Type} [SymbolicationResult R]

def collectDebugInfoAndObjectReferences (orders : Orders) (fileData : RangeReadRef)
    (obj : ObjectFile) (addresses : List AddressPair) (result : R)
    (remainingObjectReferences : List ObjectReference) (pathMapper : PathMapper Unit) :
    Call ε (R × List ObjectReference × PathMapper Unit) := do
  let (externalFunsByObject, internalAddresses) :=
    matchFunsToAddresses (objectMapSymbols obj) addresses
  let (result, pathMapper) ←
    Dwarf.collectDwarfAddressDebugData fileData obj internalAddresses result pathMapper
  let references ← objectReferences orders obj.objectMap.objects externalFunsByObject
  return (result, remainingObjectReferences ++ references, pathMapper)

end ObjectReferences

/-! ## The single pass is a sweep -/

namespace ObjectReferences

/-- The test that advances `cur_fun`. -/
def Past (fun_ : ObjectMapEntry) (p : AddressPair) : Prop :=
  fun_.address ≤ p.vmaddrInThisObject ∧ u64Add fun_.address fun_.size ≤ p.vmaddrInThisObject

/-- The address is in the function, by the tests of the loop. -/
def Hits (fun_ : ObjectMapEntry) (p : AddressPair) : Prop :=
  fun_.address ≤ p.vmaddrInThisObject ∧ p.vmaddrInThisObject < u64Add fun_.address fun_.size

instance : DecidableRel Past := fun _ _ => inferInstanceAs (Decidable (_ ∧ _))

instance : DecidableRel Hits := fun _ _ => inferInstanceAs (Decidable (_ ∧ _))

/-- An address as it is filed under a function. -/
def withOffset (fun_ : ObjectMapEntry) (p : AddressPair) : AddressWithOffset :=
  ⟨p.originalRelativeAddress, asU32 (p.vmaddrInThisObject - fun_.address)⟩

/-- What the loop assigns. -/
abbrev split (funs : List ObjectMapEntry) (addresses : List AddressPair) :
    Swept ObjectMapEntry AddressPair := sweep Past Hits funs addresses

/-- The inserts into `external_funs_by_object`. -/
def flushes (assigned : List (ObjectMapEntry × List AddressPair)) :
    List (Nat × Bytes × List AddressWithOffset) :=
  assigned.map (fun e => (e.1.objectIndex, e.1.name, e.2.map (withOffset e.1)))

theorem matchFun_eq (fun_ : ObjectMapEntry) (addresses : List AddressPair)
    (cur : List AddressWithOffset) (internal : List AddressPair) :
    matchFun fun_ addresses cur internal =
      (cur ++ ((addresses.takeWhile (fun p => ¬ Past fun_ p)).filter
          (fun p => Hits fun_ p)).map (withOffset fun_),
        internal ++ (addresses.takeWhile (fun p => ¬ Past fun_ p)).filter (fun p => ¬ Hits fun_ p),
        addresses.dropWhile (fun p => ¬ Past fun_ p)) := by
  induction addresses generalizing cur internal with
  | nil => simp [matchFun]
  | cons p addresses ih =>
      rw [matchFun]
      by_cases hbelow : fun_.address > p.vmaddrInThisObject
      · have hpast : ¬ Past fun_ p := fun h => by have := h.1; omega
        have hhit : ¬ Hits fun_ p := fun h => by have := h.1; omega
        rw [if_pos hbelow, ih]
        simp [hpast, hhit]
      · rw [if_neg hbelow]
        by_cases hend : p.vmaddrInThisObject ≥ u64Add fun_.address fun_.size
        · have hpast : Past fun_ p := ⟨by omega, hend⟩
          rw [if_pos hend]
          simp [hpast]
        · have hpast : ¬ Past fun_ p := fun h => hend h.2
          have hhit : Hits fun_ p := ⟨by omega, by omega⟩
          rw [if_neg hend, ih]
          simp [hpast, hhit, withOffset]

/-- The loop fills the map with what the sweep assigns. -/
theorem matchFuns_eq (funs : List ObjectMapEntry) (addresses : List AddressPair)
    (external : HashMap Nat FunctionsWithAddresses) (internal : List AddressPair) :
    matchFuns funs addresses external internal =
      (external.insertAllIn (flushes (split funs addresses).assigned),
        internal ++ (split funs addresses).rest) := by
  induction funs generalizing addresses external internal with
  | nil => simp [matchFuns, sweep, flushes, HashMap.insertAllIn]
  | cons fun_ funs ih =>
      rw [matchFuns, matchFun_eq]
      simp only [List.nil_append]
      rw [ih]
      simp only [sweep, flushCurFun, List.isEmpty_map]
      rw [List.append_assoc]
      split
      · rfl
      · rfl

theorem matchFunsToAddresses_eq (funs : List ObjectMapEntry) (addresses : List AddressPair) :
    matchFunsToAddresses funs addresses =
      (HashMap.empty.insertAllIn (flushes (split funs addresses).assigned),
        (split funs addresses).rest) := by
  rw [matchFunsToAddresses, matchFuns_eq, List.nil_append]

/-- Sorted functions and addresses ascend together. -/
theorem ascending {funs : List ObjectMapEntry} {addresses : List AddressPair}
    (hfuns : funs.Pairwise (fun f g => f.address ≤ g.address))
    (haddresses : addresses.Pairwise (fun p q => p.vmaddrInThisObject ≤ q.vmaddrInThisObject)) :
    Ascending Past Hits funs addresses where
  past_mono := by
    refine haddresses.imp ?_
    intro p q hpq f _ hpast
    exact ⟨hpast.1.trans hpq, hpast.2.trans hpq⟩
  not_hit_of_past := by
    intro f _ p hpast hhit
    have := hpast.2
    have := hhit.2
    omega
  not_hit_of_below := by
    refine hfuns.imp ?_
    intro f g hfg p hpast hmiss hhit
    -- neither past nor hit: the address is below `f`
    refine hpast ⟨hfg.trans hhit.1, ?_⟩
    by_contra hlt
    exact hmiss ⟨hfg.trans hhit.1, by omega⟩

theorem objectMapSymbols_pairwise (obj : ObjectFile) :
    (objectMapSymbols obj).Pairwise (fun f g => f.address ≤ g.address) :=
  sortByKey_pairwise _ _

/-- The function that an address belongs to: the first one in address order that it hits. -/
def owner (obj : ObjectFile) (p : AddressPair) : Option ObjectMapEntry :=
  (objectMapSymbols obj).find? (fun f => Hits f p)

/-! ## What is filed where -/

/-- `str::from_utf8(objects[object_index])`. -/
def objectName (objects : List Bytes) (objectIndex : Nat) : Option String :=
  objects[objectIndex]?.bind fromUtf8

section Filing

variable [Platform] {ε : Type}

/-- Functions of one external object: the path by its components, the name in
    the archive, and the functions. -/
abbrev Member := List Bytes × Option String × FunctionsWithAddresses

/-- The external object file that an object-map object names: the path by its
    components, and the name in the archive. -/
def objectFile (objects : List Bytes) (objectIndex : Nat) : Option (List Bytes × Option String) :=
  (objectName objects objectIndex).map (fun name =>
    (Platform.components (splitObjectName name).1, (splitObjectName name).2))

/-- The functions of an object-map object, with the file that it names. -/
def member (objects : List Bytes) (e : Nat × FunctionsWithAddresses) : Option Member :=
  (objectFile objects e.1).map (fun file => (file.1, file.2, e.2))

/-- The reference to a regular object file, for an object-map object that is one. -/
def regularTarget (objects : List Bytes) (e : Nat × FunctionsWithAddresses) :
    Option (PathBuf × FunctionsWithAddresses) :=
  match (objectName objects e.1).map splitObjectName with
  | some (path, none) => some (path, e.2)
  | _ => none

/-- The insert into `archives`, for an object-map object that is an archive member. -/
def archiveTarget (objects : List Bytes) (e : Nat × FunctionsWithAddresses) :
    Option (PathBuf × String × FunctionsWithAddresses) :=
  match (objectName objects e.1).map splitObjectName with
  | some (path, some nameInArchive) => some (path, nameInArchive, e.2)
  | _ => none

/-- The round of one object: it panics, or files the functions by its name. -/
theorem fileUnderObject_eq_ok {objects : List Bytes} {filed filed' : Filed}
    {e : Nat × FunctionsWithAddresses} :
    (fileUnderObject objects filed e : Call ε Filed) = .ok filed' ↔
      (objectName objects e.1).isSome ∧
        filed' = ⟨filed.references ++ (regularTarget objects e).toList.map
            (fun t => .regular t.1 t.2),
          filed.archives.insertAllIn (archiveTarget objects e).toList⟩ := by
  obtain ⟨i, functions⟩ := e
  rw [fileUnderObject, regularTarget, archiveTarget, objectName]
  cases hobject : objects[i]? with
  | none => simp [Outcome.unwrap]
  | some object =>
      cases hname : fromUtf8 object with
      | none => simp [Outcome.unwrap, hname]
      | some name =>
          rcases hsplit : splitObjectName name with ⟨path, _ | nameInArchive⟩
          · simp [Outcome.unwrap, hname, hsplit, HashMap.insertAllIn, eq_comm]
          · simp [Outcome.unwrap, hname, hsplit, HashMap.insertAllIn, eq_comm]

theorem foldlM_fileUnderObject_eq_ok {objects : List Bytes} {filed filed' : Filed}
    {l : List (Nat × FunctionsWithAddresses)} :
    (l.foldlM (fileUnderObject objects) filed : Call ε Filed) = .ok filed' ↔
      (∀ e ∈ l, (objectName objects e.1).isSome) ∧
        filed' = ⟨filed.references ++ (l.filterMap (regularTarget objects)).map
            (fun t => .regular t.1 t.2),
          filed.archives.insertAllIn (l.filterMap (archiveTarget objects))⟩ := by
  induction l generalizing filed with
  | nil =>
      simp only [List.foldlM_nil, Outcome.pure_eq_ok, Outcome.ok.injEq, List.filterMap_nil,
        List.map_nil, List.append_nil, List.not_mem_nil, false_implies, implies_true, true_and]
      exact eq_comm
  | cons e l ih =>
      -- one object is filed as a reference or as a member, and the rest as before
      have hround : ∀ first : Filed,
          (⟨first.references ++ ((e :: l).filterMap (regularTarget objects)).map
              (fun t => .regular t.1 t.2),
            first.archives.insertAllIn ((e :: l).filterMap (archiveTarget objects))⟩ : Filed)
          = ⟨(first.references ++ (regularTarget objects e).toList.map
                (fun t => .regular t.1 t.2))
              ++ (l.filterMap (regularTarget objects)).map (fun t => .regular t.1 t.2),
            (first.archives.insertAllIn (archiveTarget objects e).toList).insertAllIn
              (l.filterMap (archiveTarget objects))⟩ := by
        intro first
        cases hr : regularTarget objects e <;> cases ha : archiveTarget objects e <;>
          simp [hr, ha, HashMap.insertAllIn]
      rw [List.foldlM_cons, Outcome.bind_eq_ok, List.forall_mem_cons, hround]
      constructor
      · rintro ⟨first, hfirst, hrest⟩
        obtain ⟨hname, rfl⟩ := fileUnderObject_eq_ok.mp hfirst
        obtain ⟨hnames, hfiled⟩ := ih.mp hrest
        exact ⟨⟨hname, hnames⟩, hfiled⟩
      · rintro ⟨⟨hname, hnames⟩, hfiled⟩
        exact ⟨_, fileUnderObject_eq_ok.mpr ⟨hname, rfl⟩, ih.mpr ⟨hnames, hfiled⟩⟩

/-- The members that a reference asks for. -/
def members : ObjectReference → List Member
  | .regular path functions => [(Platform.components path, none, functions)]
  | .archive path archiveInfo =>
      archiveInfo.entries.map (fun e => (Platform.components path, some e.1, e.2))

/-- The members of a reference are in the file that it opens. -/
theorem fst_of_mem_members {objRef : ObjectReference} {m : Member} (h : m ∈ members objRef) :
    m.1 = Platform.components objRef.path := by
  cases objRef with
  | regular path functions =>
      rw [members, List.mem_singleton] at h
      rw [h]
      rfl
  | archive path archiveInfo =>
      obtain ⟨e, -, rfl⟩ := List.mem_map.mp h
      rfl

/-- An object is a regular file or an archive member. -/
theorem filterMap_member_perm (objects : List Bytes) (l : List (Nat × FunctionsWithAddresses)) :
    l.filterMap (member objects) ~
      (l.filterMap (regularTarget objects)).map (fun t => (Platform.components t.1, none, t.2))
        ++ (l.filterMap (archiveTarget objects)).map
          (fun t => (Platform.components t.1, some t.2.1, t.2.2)) := by
  induction l with
  | nil => exact List.Perm.refl _
  | cons e l ih =>
      cases hname : objectName objects e.1 with
      | none =>
          rw [List.filterMap_cons_none (by simp [member, objectFile, hname]),
            List.filterMap_cons_none (by simp [regularTarget, hname]),
            List.filterMap_cons_none (by simp [archiveTarget, hname])]
          exact ih
      | some name =>
          rcases hsplit : splitObjectName name with ⟨path, _ | nameInArchive⟩
          · rw [List.filterMap_cons_some (b := (Platform.components path, none, e.2))
                (by simp [member, objectFile, hname, hsplit]),
              List.filterMap_cons_some (b := (path, e.2)) (by simp [regularTarget, hname, hsplit]),
              List.filterMap_cons_none (by simp [archiveTarget, hname, hsplit])]
            exact ih.cons _
          · rw [List.filterMap_cons_some
                (b := (Platform.components path, some nameInArchive, e.2))
                (by simp [member, objectFile, hname, hsplit]),
              List.filterMap_cons_none (by simp [regularTarget, hname, hsplit]),
              List.filterMap_cons_some (b := (path, nameInArchive, e.2))
                (by simp [archiveTarget, hname, hsplit])]
            exact (ih.cons _).trans List.perm_middle.symm

/-- The members that queued archives ask for are the entries of the map. -/
theorem flatMap_members_archive (orders : Orders)
    (archives : HashMap PathBuf (HashMap String FunctionsWithAddresses)) :
    ((orders.archives.order archives.entries).map (fun e => .archive e.1 e.2)).flatMap members ~
      (archives.triples Platform.components).map (fun t => (t.1, some t.2.1, t.2.2)) := by
  rw [List.flatMap_map, HashMap.triples, List.map_flatMap]
  refine ((orders.archives.perm archives.entries).flatMap_right _).trans ?_
  refine List.Perm.of_eq (List.flatMap_congr ?_)
  intro e _
  rw [List.map_map]
  rfl

/-- What a call that answers has queued: every object name is readable, and the
    members asked for are those of the outer map as far as `archives` kept them. -/
theorem objectReferences_eq_ok {orders : Orders} {objects : List Bytes}
    {external : HashMap Nat FunctionsWithAddresses} {references : List ObjectReference}
    (h : (objectReferences orders objects external : Call ε _) = .ok references) :
    (∀ e ∈ external.entries, (objectName objects e.1).isSome) ∧
      ∃ l : List (Nat × FunctionsWithAddresses), l ~ external.entries ∧
        references.flatMap members ~
          (l.filterMap (regularTarget objects)).map (fun t => (Platform.components t.1, none, t.2))
            ++ ((HashMap.empty.insertAllIn (l.filterMap (archiveTarget objects))).triples
              Platform.components).map (fun t => (t.1, some t.2.1, t.2.2)) := by
  rw [objectReferences, Outcome.bind_eq_ok] at h
  obtain ⟨filed, hfiled, h⟩ := h
  obtain ⟨hnames, rfl⟩ := foldlM_fileUnderObject_eq_ok.mp hfiled
  rw [Outcome.pure_eq_ok, Outcome.ok.injEq] at h
  subst h
  have hperm := orders.externalFunsByObject.perm external.entries
  refine ⟨fun e he => hnames e (hperm.mem_iff.mpr he), _, hperm, ?_⟩
  rw [List.flatMap_append, List.nil_append, List.flatMap_map]
  refine List.Perm.append (List.Perm.of_eq ?_) (flatMap_members_archive orders _)
  rw [List.map_eq_flatMap]
  rfl

/-- The archive member that an object-map object names. -/
def archiveMember (objects : List Bytes) (objectIndex : Nat) : Option (List Bytes × String) :=
  match objectFile objects objectIndex with
  | some (path, some nameInArchive) => some (path, nameInArchive)
  | _ => none

/-- The archive members under which functions are filed. -/
def archiveKeys (objects : List Bytes) (l : List (Nat × FunctionsWithAddresses)) :
    List (List Bytes × String) :=
  l.filterMap (fun e => archiveMember objects e.1)

theorem map_archiveTarget (objects : List Bytes) (l : List (Nat × FunctionsWithAddresses)) :
    (l.filterMap (archiveTarget objects)).map (fun t => (Platform.components t.1, t.2.1))
      = archiveKeys objects l := by
  rw [List.map_filterMap, archiveKeys]
  refine List.filterMap_congr ?_
  intro e _
  rw [archiveTarget, archiveMember, objectFile]
  cases hname : objectName objects e.1 with
  | none => rfl
  | some name =>
      rcases hsplit : splitObjectName name with ⟨path, _ | nameInArchive⟩
      · simp [hsplit]
      · simp [hsplit]

variable (ε) in
/-- Readable names are all that the filing needs. -/
theorem exists_objectReferences (orders : Orders) {objects : List Bytes}
    {external : HashMap Nat FunctionsWithAddresses}
    (h : ∀ e ∈ external.entries, (objectName objects e.1).isSome) :
    ∃ references, (objectReferences orders objects external : Call ε _) = .ok references := by
  have hperm := orders.externalFunsByObject.perm external.entries
  have hfold : ((orders.externalFunsByObject.order external.entries).foldlM
      (fileUnderObject objects) ⟨[], .empty⟩ : Call ε Filed) = .ok _ :=
    foldlM_fileUnderObject_eq_ok.mpr ⟨fun e he => h e (hperm.mem_iff.mp he), rfl⟩
  exact ⟨_, Outcome.bind_eq_ok.mpr ⟨_, hfold, rfl⟩⟩

variable (ε) in
/-- **ANY MEMBER MAY STAY**: in some order the queue asks for a given member, whatever
    others have its name. -/
theorem exists_orders_keeping {objects : List Bytes}
    {external : HashMap Nat FunctionsWithAddresses}
    (h : ∀ e ∈ external.entries, (objectName objects e.1).isSome) {m : Member}
    (hm : m ∈ external.entries.filterMap (member objects)) :
    ∃ orders references, (objectReferences orders objects external : Call ε _) = .ok references ∧
      m ∈ references.flatMap members := by
  obtain ⟨e, he, hem⟩ := List.mem_filterMap.mp hm
  -- the object of the member is filed last
  obtain ⟨order, horder⟩ := IterOrder.exists_last e
  obtain ⟨earlier, hearlier⟩ := horder _ he
  let orders : Orders := ⟨order, .listed _, .listed _⟩
  have hfold : ((orders.externalFunsByObject.order external.entries).foldlM
      (fileUnderObject objects) ⟨[], .empty⟩ : Call ε Filed) = .ok _ :=
    foldlM_fileUnderObject_eq_ok.mpr ⟨fun e' he' => h e' ((order.perm _).mem_iff.mp he'), rfl⟩
  refine ⟨orders, _, Outcome.bind_eq_ok.mpr ⟨_, hfold, rfl⟩, ?_⟩
  have hone : m ∈ [e].filterMap (member objects) :=
    List.mem_filterMap.mpr ⟨e, List.mem_singleton_self e, hem⟩
  rw [(filterMap_member_perm objects [e]).mem_iff, List.mem_append] at hone
  rw [List.flatMap_append, List.mem_append, (flatMap_members_archive orders _).mem_iff]
  have hlast : orders.externalFunsByObject.order external.entries = earlier ++ [e] := hearlier
  rw [hlast]
  rcases hone with hregular | harchive
  · obtain ⟨t, ht, rfl⟩ := List.mem_map.mp hregular
    refine Or.inl (List.mem_flatMap.mpr ⟨.regular t.1 t.2, ?_, List.mem_singleton_self _⟩)
    refine List.mem_map.mpr ⟨t, ?_, rfl⟩
    rw [List.filterMap_append]
    exact List.mem_append_right _ ht
  · obtain ⟨t, ht, rfl⟩ := List.mem_map.mp harchive
    refine Or.inr (List.mem_map.mpr ⟨(Platform.components t.1, t.2.1, t.2.2), ?_, rfl⟩)
    have htarget : (earlier ++ [e]).filterMap (archiveTarget objects)
        = earlier.filterMap (archiveTarget objects) ++ [t] := by
      obtain ⟨e', he', het⟩ := List.mem_filterMap.mp ht
      obtain rfl := List.mem_singleton.mp he'
      rw [List.filterMap_append, List.filterMap_cons_some het, List.filterMap_nil]
    rw [htarget]
    exact HashMap.mem_triples_insertAllIn_last (fun a b hab => PathBuf.beq_iff.mp hab) _ _ _

/-- Every queued reference asks for something. -/
theorem members_ne_nil {orders : Orders} {objects : List Bytes}
    {external : HashMap Nat FunctionsWithAddresses} {references : List ObjectReference}
    (h : (objectReferences orders objects external : Call ε _) = .ok references)
    {objRef : ObjectReference} (hmem : objRef ∈ references) : members objRef ≠ [] := by
  rw [objectReferences, Outcome.bind_eq_ok] at h
  obtain ⟨filed, hfiled, h⟩ := h
  obtain ⟨-, rfl⟩ := foldlM_fileUnderObject_eq_ok.mp hfiled
  rw [Outcome.pure_eq_ok, Outcome.ok.injEq] at h
  subst h
  rcases List.mem_append.mp hmem with hregular | harchive
  · obtain ⟨t, -, rfl⟩ := List.mem_map.mp hregular
    exact List.cons_ne_nil _ _
  · obtain ⟨e, he, rfl⟩ := List.mem_map.mp harchive
    have hne := HashMap.insertAllIn_ne_nil _ (by simp) e (orders.archives.mem_order.mp he)
    exact fun hnil => hne (List.map_eq_nil_iff.mp hnil)

/-- An address where it is filed: under a function of an object file or archive member. -/
structure FiledAddress where
  path : List Bytes
  nameInArchive : Option String
  function : Bytes
  address : AddressWithOffset
  deriving DecidableEq

/-- The addresses filed under the functions of a member. -/
def filedAddresses (m : Member) : List FiledAddress :=
  m.2.2.entries.flatMap (fun e => e.2.map (fun a => ⟨m.1, m.2.1, e.1, a⟩))

/-- The addresses of a function, filed in the file that the object index names. -/
def filedUnder (objects : List Bytes) (t : Nat × Bytes × List AddressWithOffset) :
    List FiledAddress :=
  match objectFile objects t.1 with
  | some file => t.2.2.map (fun a => ⟨file.1, file.2, t.2.1, a⟩)
  | none => []

theorem flatMap_filedAddresses (objects : List Bytes)
    (external : HashMap Nat FunctionsWithAddresses) :
    (external.entries.filterMap (member objects)).flatMap filedAddresses
      = (external.triples id).flatMap (filedUnder objects) := by
  rw [HashMap.triples, List.flatMap_assoc, List.filterMap_eq_flatMap_toList, List.flatMap_assoc]
  refine List.flatMap_congr ?_
  intro e _
  rw [member, List.flatMap_map]
  cases hfile : objectFile objects e.1 with
  | none => simp [filedUnder, hfile]
  | some file => simp [filedUnder, hfile, filedAddresses]

/-- **NO MEMBER IS INVENTED**: the queue asks for members that the outer map names. -/
theorem members_subperm {orders : Orders} {objects : List Bytes}
    {external : HashMap Nat FunctionsWithAddresses} {references : List ObjectReference}
    (h : (objectReferences orders objects external : Call ε _) = .ok references) :
    references.flatMap members <+~ external.entries.filterMap (member objects) := by
  obtain ⟨-, l, hl, hmembers⟩ := objectReferences_eq_ok h
  refine hmembers.subperm.trans (List.Subperm.trans ?_
    ((filterMap_member_perm objects l).symm.trans (hl.filterMap _)).subperm)
  refine (List.Subperm.refl _).append ?_
  have hsub := HashMap.triples_insertAllIn_subperm
    (fun a b hab => PathBuf.beq_iff.mp hab) (l.filterMap (archiveTarget objects))
    (HashMap.empty : HashMap PathBuf (HashMap String FunctionsWithAddresses))
  rw [HashMap.triples_empty, List.nil_append] at hsub
  have hmap := subperm_map (fun t : List Bytes × String × FunctionsWithAddresses =>
    (t.1, some t.2.1, t.2.2)) hsub
  rwa [List.map_map] at hmap

/-- **EXACTLY THE COLLISIONS LOSE A MEMBER**. -/
theorem members_perm_iff {orders : Orders} {objects : List Bytes}
    {external : HashMap Nat FunctionsWithAddresses} {references : List ObjectReference}
    (h : (objectReferences orders objects external : Call ε _) = .ok references) :
    references.flatMap members ~ external.entries.filterMap (member objects) ↔
      (archiveKeys objects external.entries).Nodup := by
  obtain ⟨-, l, hl, hmembers⟩ := objectReferences_eq_ok h
  have hmember := (filterMap_member_perm objects l).symm.trans (hl.filterMap (member objects))
  have hkeys : archiveKeys objects l ~ archiveKeys objects external.entries := hl.filterMap _
  rw [← hkeys.nodup_iff, ← map_archiveTarget]
  have hlen := HashMap.length_triples_insertAllIn
    (fun a b => PathBuf.beq_iff (p := a) (q := b)) (l.filterMap (archiveTarget objects))
  constructor
  · intro hperm
    refine hlen.mp ?_
    have := (hmembers.symm.trans (hperm.trans hmember.symm)).length_eq
    simpa using this
  · intro hnodup
    refine hmembers.trans (List.Perm.trans ?_ hmember)
    refine List.Perm.append_left _ ?_
    have hsub := HashMap.triples_insertAllIn_subperm
      (fun a b hab => PathBuf.beq_iff.mp hab) (l.filterMap (archiveTarget objects))
      (HashMap.empty : HashMap PathBuf (HashMap String FunctionsWithAddresses))
    rw [HashMap.triples_empty, List.nil_append] at hsub
    have hperm := hsub.perm_of_length_le (by rw [hlen.mpr hnodup, List.length_map])
    have hmap := hperm.map (fun t : List Bytes × String × FunctionsWithAddresses =>
      (t.1, some t.2.1, t.2.2))
    rwa [List.map_map] at hmap

/-- The filing panics at an index out of bounds and at an unreadable name. -/
theorem settles_objectReferences {admitted : Panic → Prop} (hindex : admitted .indexOutOfBounds)
    (hname : admitted .objectNameNotUtf8) (orders : Orders) (objects : List Bytes)
    (external : HashMap Nat FunctionsWithAddresses) :
    (objectReferences orders objects external : Call ε _).Settles admitted := by
  rw [objectReferences]
  refine Outcome.Settles.bind ?_ (fun _ _ => trivial)
  refine Outcome.Settles.foldlM ?_ _
  rintro filed ⟨objectIndex, functions⟩ -
  rw [fileUnderObject]
  refine (Outcome.settles_unwrap hindex _).bind (fun _ _ => ?_)
  refine (Outcome.settles_unwrap hname _).bind (fun objectName _ => ?_)
  rcases splitObjectName objectName with ⟨path, _ | nameInArchive⟩
  · exact trivial
  · exact trivial

end Filing

/-! ## The call as a whole -/

/-- The addresses that an object hands to its own DWARF lookup. -/
def internalAddresses (obj : ObjectFile) (addresses : List AddressPair) : List AddressPair :=
  (matchFunsToAddresses (objectMapSymbols obj) addresses).2

/-- The map of the addresses that an object files under other objects. -/
def externalFunsByObject (obj : ObjectFile) (addresses : List AddressPair) :
    HashMap Nat FunctionsWithAddresses :=
  (matchFunsToAddresses (objectMapSymbols obj) addresses).1

/-- The addresses of each function, as the pass assigns them. -/
abbrev assigned (obj : ObjectFile) (addresses : List AddressPair) :
    List (ObjectMapEntry × List AddressPair) := (split (objectMapSymbols obj) addresses).assigned

theorem internalAddresses_eq_rest (obj : ObjectFile) (addresses : List AddressPair) :
    internalAddresses obj addresses = (split (objectMapSymbols obj) addresses).rest := by
  rw [internalAddresses, matchFunsToAddresses_eq]

theorem externalFunsByObject_eq (obj : ObjectFile) (addresses : List AddressPair) :
    externalFunsByObject obj addresses
      = HashMap.empty.insertAllIn (flushes (assigned obj addresses)) := by
  rw [externalFunsByObject, matchFunsToAddresses_eq]

/-- The outer map keeps a part of what is inserted. -/
theorem triples_subperm (obj : ObjectFile) (addresses : List AddressPair) :
    (externalFunsByObject obj addresses).triples id <+~ flushes (assigned obj addresses) := by
  have h := HashMap.triples_insertAllIn_subperm (fun a b hab => eq_of_beq hab)
    (flushes (assigned obj addresses)) (f := id)
    (HashMap.empty : HashMap Nat FunctionsWithAddresses)
  rw [HashMap.triples_empty, List.nil_append, ← externalFunsByObject_eq] at h
  simpa using h

theorem addresses_perm (obj : ObjectFile) (addresses : List AddressPair) :
    addresses ~ internalAddresses obj addresses ++ (assigned obj addresses).flatMap (·.2) := by
  rw [internalAddresses_eq_rest]
  exact sweep_perm Past Hits _ _

/-- The call is the lookup in the object and the filing of the other addresses. -/
theorem collect_eq_ok [Platform] [Crates] {R ε : Type} [SymbolicationResult R] {orders : Orders}
    {fileData : RangeReadRef} {obj : ObjectFile} {addresses : List AddressPair} {r r' : R}
    {remaining remaining' : List ObjectReference} {m m' : PathMapper Unit} :
    (collectDebugInfoAndObjectReferences orders fileData obj addresses r remaining m : Call ε _)
        = .ok (r', remaining', m') ↔
      (Dwarf.collectDwarfAddressDebugData fileData obj (internalAddresses obj addresses) r m
        : Call ε _) = .ok (r', m') ∧
      ∃ references, (objectReferences orders obj.objectMap.objects
          (externalFunsByObject obj addresses) : Call ε _) = .ok references ∧
        remaining' = remaining ++ references := by
  have hcall : (collectDebugInfoAndObjectReferences orders fileData obj addresses r remaining m
      : Call ε _) = (do
        let (result, pathMapper) ← Dwarf.collectDwarfAddressDebugData fileData obj
          (internalAddresses obj addresses) r m
        let references ← objectReferences orders obj.objectMap.objects
          (externalFunsByObject obj addresses)
        return (result, remaining ++ references, pathMapper)) := rfl
  rw [hcall, Outcome.bind_eq_ok]
  constructor
  · rintro ⟨⟨r₁, m₁⟩, hdwarf, hrest⟩
    obtain ⟨references, hreferences, heq⟩ := Outcome.bind_eq_ok.mp hrest
    rw [Outcome.pure_eq_ok, Outcome.ok.injEq, Prod.mk.injEq, Prod.mk.injEq] at heq
    obtain ⟨rfl, rfl, rfl⟩ := heq
    exact ⟨hdwarf, references, hreferences, rfl⟩
  · rintro ⟨hdwarf, references, hreferences, rfl⟩
    refine ⟨(r', m'), hdwarf, Outcome.bind_eq_ok.mpr ⟨references, hreferences, rfl⟩⟩

end ObjectReferences

namespace ObjectReference

variable [Platform]

variable [Crates]

def intoObjects (orders : Orders) (data : FileContents) :
    ObjectReference → Except GetSymbolsError (List (RangeReadRef × FunctionsWithAddresses))
  | .regular _ functions => .ok [(data.fullRange, functions)]
  | .archive path archiveInfo => do
      let members ← (Crates.archiveMembers data).mapError (.archiveParseError path)
      let archiveMembersByName : HashMap Bytes (Nat × Nat) := .ofList (members.filterMap id)
      return (orders.archiveInfo.order archiveInfo.entries).filterMap (fun e =>
        (archiveMembersByName.get? (asBytes e.1)).map (fun r => (data.range r.1 r.2, e.2)))

end ObjectReference

end ProfilerGetSymbols
