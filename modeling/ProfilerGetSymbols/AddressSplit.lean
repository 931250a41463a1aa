import ProfilerGetSymbols.AddressMatching

/-! # Address split — when every requested address ends up in one place

    An object splits its addresses: those that no entry of its object map covers
    are looked up in the object itself, every other one is to be filed under the
    covering function in a reference to the file that the entry names.

    Between the single pass and the queue stand four maps, and an insert under a
    key that is taken throws the addresses under it away.  So the split keeps
    every address only under a condition on the object map: no function name is
    hit twice in one object, no archive member twice in the map, every name is
    readable, and no covering entry wraps around.  `keepsEveryAddress_iff` says
    that this is the exact condition. -/

namespace ProfilerGetSymbols.AddressSplit

open ProgLib Paths ObjectReferences
open scoped List

/-! ## The sorted pass -/

theorem covers_of_hits {e : ObjectMapEntry} {p : AddressPair} (h : Hits e p) : Covers e p :=
  ⟨h.1, h.2.trans_le (Nat.mod_le _ _)⟩

theorem mem_symbols_of_owner {obj : ObjectFile} {p : AddressPair} {e : ObjectMapEntry}
    (h : owner obj p = some e) : e ∈ obj.objectMap.symbols ∧ Hits e p := by
  refine ⟨(mem_sortByKey _).mp (List.mem_of_find?_eq_some h), ?_⟩
  simpa using List.find?_some h

section Sorted

variable {obj : ObjectFile} {addresses : List AddressPair}

variable (hsorted : addresses.Pairwise (fun p q => p.vmaddrInThisObject ≤ q.vmaddrInThisObject))

include hsorted

theorem owner_of_mem_assigned {e : ObjectMapEntry × List AddressPair}
    (he : e ∈ assigned obj addresses) {p : AddressPair} (hp : p ∈ e.2) : owner obj p = some e.1 :=
  (sweep_first (ascending (objectMapSymbols_pairwise obj) hsorted).inTime).1 e he p hp

theorem owner_of_mem_internal {p : AddressPair} (hp : p ∈ internalAddresses obj addresses) :
    owner obj p = none := by
  rw [internalAddresses_eq_rest] at hp
  exact (sweep_first (ascending (objectMapSymbols_pairwise obj) hsorted).inTime).2 p hp

/-- An address with an owner is assigned to it. -/
theorem exists_assigned_of_owner {p : AddressPair} (hp : p ∈ addresses) {e : ObjectMapEntry}
    (howner : owner obj p = some e) : ∃ hits, (e, hits) ∈ assigned obj addresses ∧ p ∈ hits :=
  exists_assigned_of_firstHit (objectMapSymbols_pairwise obj) hsorted hp howner

/-- The lookup of the object gets the addresses without an owner, in their order. -/
theorem internalAddresses_eq_filter :
    internalAddresses obj addresses = addresses.filter (fun p => owner obj p = none) := by
  have hin : (internalAddresses obj addresses).filter (fun p => owner obj p = none)
      = internalAddresses obj addresses := by
    rw [List.filter_eq_self]
    intro p hp
    exact decide_eq_true (owner_of_mem_internal hsorted hp)
  have hout : ((assigned obj addresses).flatMap (·.2)).filter (fun p => owner obj p = none)
      = [] := by
    rw [List.filter_eq_nil_iff]
    intro p hp
    obtain ⟨a, ha, hpa⟩ := List.mem_flatMap.mp hp
    simp [owner_of_mem_assigned hsorted ha hpa]
  have hsub := (sweep_rest_sublist Past Hits (objectMapSymbols obj) addresses).filter
    (fun p => decide (owner obj p = none))
  rw [← split, ← internalAddresses_eq_rest, hin] at hsub
  have hperm := (addresses_perm obj addresses).filter
    (fun p => decide (owner obj p = none))
  rw [List.filter_append, hin, hout, List.append_nil] at hperm
  exact hsub.eq_of_length hperm.length_eq.symm

end Sorted

/-! ## What the maps keep -/

section Maps

variable (obj : ObjectFile) (addresses : List AddressPair)

/-- Every function keeps its addresses exactly if no two of them share a key. -/
theorem triples_perm_iff :
    (externalFunsByObject obj addresses).triples id ~ flushes (assigned obj addresses) ↔
      ((assigned obj addresses).map (fun e => (e.1.objectIndex, e.1.name))).Nodup := by
  have hlen := HashMap.length_triples_insertAllIn (f := (id : Nat → Nat))
    (fun a b => beq_iff_eq (a := a) (b := b)) (flushes (assigned obj addresses))
  rw [← externalFunsByObject_eq] at hlen
  have hkeys : (flushes (assigned obj addresses)).map (fun e => (id e.1, e.2.1))
      = (assigned obj addresses).map (fun e => (e.1.objectIndex, e.1.name)) := by
    rw [flushes, List.map_map]
    rfl
  rw [← hkeys, ← hlen]
  exact ⟨List.Perm.length_eq, fun h => (triples_subperm obj addresses).perm_of_length_le h.ge⟩

variable {obj addresses}

theorem flush_ne_nil {t : Nat × Bytes × List AddressWithOffset}
    (ht : t ∈ flushes (assigned obj addresses)) : t.2.2 ≠ [] := by
  obtain ⟨e, he, rfl⟩ := List.mem_map.mp ht
  simpa using (sweep_hit Past Hits he).2.1

/-- An entry of the outer map has a function with addresses. -/
theorem exists_triple_of_mem {e : Nat × FunctionsWithAddresses}
    (he : e ∈ (externalFunsByObject obj addresses).entries) :
    ∃ t ∈ (externalFunsByObject obj addresses).triples id, t.1 = e.1 ∧ t.2 ∈ e.2.entries := by
  have hne : e.2.entries ≠ [] := by
    rw [externalFunsByObject_eq] at he
    exact HashMap.insertAllIn_ne_nil _ (by simp) e he
  obtain ⟨e', he'⟩ := List.exists_mem_of_ne_nil _ hne
  exact ⟨(e.1, e'), List.mem_flatMap.mpr ⟨e, he, List.mem_map.mpr ⟨e', he', rfl⟩⟩, rfl, he'⟩

end Maps

/-! ## The property and its condition -/

/-- An element of the right list has one on the left. -/
theorem exists_of_forall₂_of_mem {α β : Type} {r : α → β → Prop} {l : List α} {l' : List β}
    (h : List.Forall₂ r l l') {b : β} (hb : b ∈ l') : ∃ a ∈ l, r a b := by
  induction h with
  | nil => cases hb
  | cons hr _ ih =>
      rcases List.mem_cons.mp hb with rfl | hb
      · exact ⟨_, List.mem_cons_self .., hr⟩
      · obtain ⟨a, ha, hrb⟩ := ih hb
        exact ⟨a, List.mem_cons_of_mem _ ha, hrb⟩

section Property

/-- Where an address can end up: in the lookup of this object, or filed under a
    function of an object file or archive member. -/
inductive Place where
  | lookedUp (p : AddressPair)
  | filed (a : FiledAddress)

variable [Platform]

/-- The place is one where the address belongs. -/
def IsPlaceOf (obj : ObjectFile) (p : AddressPair) : Place → Prop
  | .lookedUp q => q = p ∧ ∀ e ∈ obj.objectMap.symbols, ¬ Covers e p
  | .filed a =>
      ∃ e ∈ obj.objectMap.symbols, Covers e p ∧ a.function = e.name ∧ a.address = withOffset e p ∧
        objectFile obj.objectMap.objects e.objectIndex = some (a.path, a.nameInArchive)

/-- The places that queued references are. -/
def queuedPlaces (references : List ObjectReference) : List Place :=
  ((references.flatMap members).flatMap filedAddresses).map .filed

theorem objectFile_isSome {objects : List Bytes} {i : Nat} :
    (objectFile objects i).isSome ↔ (objectName objects i).isSome := by
  rw [objectFile, Option.isSome_map]

theorem length_filedUnder {objects : List Bytes} {t : Nat × Bytes × List AddressWithOffset}
    (h : (objectName objects t.1).isSome) : (filedUnder objects t).length = t.2.2.length := by
  obtain ⟨file, hfile⟩ := Option.isSome_iff_exists.mp (objectFile_isSome.mpr h)
  rw [filedUnder, hfile, List.length_map]

/-- The condition on the object map and the addresses. -/
structure Separated (obj : ObjectFile) (addresses : List AddressPair) : Prop where
  /-- A covering entry that wraps around at 2^64 is not seen. -/
  covered : ∀ p ∈ addresses, ∀ e ∈ obj.objectMap.symbols, Covers e p → (owner obj p).isSome
  readable : ∀ p ∈ addresses, ∀ e, owner obj p = some e →
    (objectName obj.objectMap.objects e.objectIndex).isSome
  /-- No function name is hit twice in one object. -/
  functions : ∀ p ∈ addresses, ∀ q ∈ addresses, ∀ e f, owner obj p = some e → owner obj q = some f →
    e.objectIndex = f.objectIndex → e.name = f.name → e = f
  /-- No archive member is named by two of the objects that are hit. -/
  members : ∀ p ∈ addresses, ∀ q ∈ addresses, ∀ e f, owner obj p = some e → owner obj q = some f →
    ∀ m, archiveMember obj.objectMap.objects e.objectIndex = some m →
      archiveMember obj.objectMap.objects f.objectIndex = some m → e.objectIndex = f.objectIndex

variable [Crates] {R : Type} [SymbolicationResult R] (ε : Type)

/-- The call answers, and the places it has filled are one for every address. -/
def KeepsEveryAddress (orders : Orders) (fileData : RangeReadRef) (obj : ObjectFile)
    (addresses : List AddressPair) (result : R) (remaining : List ObjectReference)
    (pathMapper : PathMapper Unit) : Prop :=
  ∃ result' references pathMapper',
    (collectDebugInfoAndObjectReferences orders fileData obj addresses result remaining pathMapper
      : Call ε _) = .ok (result', remaining ++ references, pathMapper') ∧
    ∃ places, List.Forall₂ (IsPlaceOf obj) addresses places ∧
      (internalAddresses obj addresses).map .lookedUp ++ queuedPlaces references ~ places

/-! ## The condition is enough -/

section Exact

variable {ε} {orders : Orders} {fileData : RangeReadRef} {obj : ObjectFile}
  {addresses : List AddressPair} {result : R} {remaining : List ObjectReference}
  {pathMapper : PathMapper Unit}

/-- The place of an address in a separated split. -/
def placeOf (obj : ObjectFile) (p : AddressPair) : Place :=
  match owner obj p with
  | none => .lookedUp p
  | some e =>
      match objectFile obj.objectMap.objects e.objectIndex with
      | some file => .filed ⟨file.1, file.2, e.name, withOffset e p⟩
      | none => .lookedUp p

omit [Crates] in
theorem isPlaceOf_placeOf (h : Separated obj addresses) {p : AddressPair} (hp : p ∈ addresses) :
    IsPlaceOf obj p (placeOf obj p) := by
  rw [placeOf]
  cases howner : owner obj p with
  | none =>
      refine ⟨rfl, ?_⟩
      intro e he hcovers
      have hsome := h.covered p hp e he hcovers
      rw [howner] at hsome
      cases hsome
  | some e =>
      obtain ⟨hmem, hhits⟩ := mem_symbols_of_owner howner
      obtain ⟨file, hfile⟩ :=
        Option.isSome_iff_exists.mp (objectFile_isSome.mpr (h.readable p hp e howner))
      simp only [hfile]
      exact ⟨e, hmem, covers_of_hits hhits, rfl, rfl, hfile⟩

omit [Crates] in
/-- What the sorted pass assigns to functions, as places. -/
theorem flatMap_flushes_placeOf
    (hsorted : addresses.Pairwise (fun p q => p.vmaddrInThisObject ≤ q.vmaddrInThisObject))
    (h : Separated obj addresses) :
    ((flushes (assigned obj addresses)).flatMap (filedUnder obj.objectMap.objects)).map Place.filed
      = ((assigned obj addresses).flatMap (·.2)).map (placeOf obj) := by
  rw [flushes, List.flatMap_map, List.map_flatMap, List.map_flatMap]
  refine List.flatMap_congr ?_
  intro e he
  have howner : ∀ p ∈ e.2, owner obj p = some e.1 := fun p => owner_of_mem_assigned hsorted he
  obtain ⟨p, hp⟩ := List.exists_mem_of_ne_nil _ (sweep_hit Past Hits he).2.1
  have hpmem : p ∈ addresses := (addresses_perm obj addresses).mem_iff.mpr
    (List.mem_append_right _ (List.mem_flatMap.mpr ⟨e, he, hp⟩))
  obtain ⟨file, hfile⟩ := Option.isSome_iff_exists.mp
    (objectFile_isSome.mpr (h.readable p hpmem e.1 (howner p hp)))
  simp only [filedUnder, hfile, List.map_map]
  refine List.map_congr_left ?_
  intro q hq
  simp [placeOf, howner q hq, hfile]

omit [Platform] [Crates] in
/-- An entry of the outer map is the object of some owner. -/
theorem exists_owner_of_mem
    (hsorted : addresses.Pairwise (fun p q => p.vmaddrInThisObject ≤ q.vmaddrInThisObject))
    {e : Nat × FunctionsWithAddresses} (he : e ∈ (externalFunsByObject obj addresses).entries) :
    ∃ p ∈ addresses, ∃ f, owner obj p = some f ∧ f.objectIndex = e.1 := by
  obtain ⟨t, ht, hindex, -⟩ := exists_triple_of_mem he
  obtain ⟨a, ha, rfl⟩ := List.mem_map.mp ((triples_subperm obj addresses).subset ht)
  obtain ⟨p, hp⟩ := List.exists_mem_of_ne_nil _ (sweep_hit Past Hits ha).2.1
  refine ⟨p, ?_, a.1, owner_of_mem_assigned hsorted ha hp, hindex⟩
  exact (addresses_perm obj addresses).mem_iff.mpr
    (List.mem_append_right _ (List.mem_flatMap.mpr ⟨a, ha, hp⟩))

omit [Platform] [Crates] in
/-- The functions that are hit have different keys. -/
theorem nodup_functionKeys
    (hsorted : addresses.Pairwise (fun p q => p.vmaddrInThisObject ≤ q.vmaddrInThisObject))
    [Platform] (h : Separated obj addresses) :
    ((assigned obj addresses).map (fun e => (e.1.objectIndex, e.1.name))).Nodup := by
  have hnodup := sweep_nodup (ascending (objectMapSymbols_pairwise obj) hsorted).inTime
  have hkeys : (assigned obj addresses).map (fun e => (e.1.objectIndex, e.1.name))
      = ((assigned obj addresses).map Prod.fst).map (fun f => (f.objectIndex, f.name)) := by
    rw [List.map_map]
    rfl
  rw [hkeys]
  refine List.Nodup.map_on ?_ hnodup
  intro f hf g hg heq
  obtain ⟨a, ha, rfl⟩ := List.mem_map.mp hf
  obtain ⟨b, hb, rfl⟩ := List.mem_map.mp hg
  obtain ⟨p, hp⟩ := List.exists_mem_of_ne_nil _ (sweep_hit Past Hits ha).2.1
  obtain ⟨q, hq⟩ := List.exists_mem_of_ne_nil _ (sweep_hit Past Hits hb).2.1
  have hmem : ∀ c ∈ assigned obj addresses, ∀ r ∈ c.2, r ∈ addresses := fun c hc r hr =>
    (addresses_perm obj addresses).mem_iff.mpr
      (List.mem_append_right _ (List.mem_flatMap.mpr ⟨c, hc, hr⟩))
  obtain ⟨hindex, hname⟩ := Prod.mk.inj heq
  exact h.functions p (hmem a ha p hp) q (hmem b hb q hq) a.1 b.1
    (owner_of_mem_assigned hsorted ha hp) (owner_of_mem_assigned hsorted hb hq) hindex hname

omit [Crates] in
/-- The archive members that are hit are named once. -/
theorem nodup_archiveKeys
    (hsorted : addresses.Pairwise (fun p q => p.vmaddrInThisObject ≤ q.vmaddrInThisObject))
    (h : Separated obj addresses) :
    (archiveKeys obj.objectMap.objects (externalFunsByObject obj addresses).entries).Nodup := by
  rw [archiveKeys, List.Nodup, List.pairwise_filterMap]
  have hdistinct := (externalFunsByObject obj addresses).distinct
  refine List.Pairwise.imp_of_mem ?_ hdistinct
  intro d e hd he hne m hm m' hm' heq
  subst heq
  obtain ⟨p, hp, f, hf, hfi⟩ := exists_owner_of_mem hsorted hd
  obtain ⟨q, hq, g, hg, hgi⟩ := exists_owner_of_mem hsorted he
  rw [← hfi] at hm
  rw [← hgi] at hm'
  have heq := h.members p hp q hq f g hf hg m hm hm'
  rw [hfi, hgi] at heq
  rw [heq, beq_self_eq_true] at hne
  exact Bool.noConfusion hne

omit [Crates] in
/-- Separated addresses are queued, each in the place where it belongs. -/
theorem exists_places_of_separated
    (hsorted : addresses.Pairwise (fun p q => p.vmaddrInThisObject ≤ q.vmaddrInThisObject))
    (h : Separated obj addresses) :
    ∃ references, (objectReferences orders obj.objectMap.objects
        (externalFunsByObject obj addresses) : Call ε _) = .ok references ∧
      (internalAddresses obj addresses).map .lookedUp ++ queuedPlaces references
        ~ addresses.map (placeOf obj) := by
  have hreadable : ∀ e ∈ (externalFunsByObject obj addresses).entries,
      (objectName obj.objectMap.objects e.1).isSome := by
    intro e he
    obtain ⟨p, hp, f, hf, hindex⟩ := exists_owner_of_mem hsorted he
    exact hindex ▸ h.readable p hp f hf
  obtain ⟨references, hreferences⟩ := exists_objectReferences ε orders hreadable
  have hqueued : queuedPlaces references
      ~ ((assigned obj addresses).flatMap (·.2)).map (placeOf obj) := by
    -- where keys are distinct, no insert displaces anything
    have hmembers := (members_perm_iff hreferences).mpr (nodup_archiveKeys hsorted h)
    have htriples := (triples_perm_iff obj addresses).mpr (nodup_functionKeys hsorted h)
    rw [← flatMap_flushes_placeOf hsorted h]
    refine List.Perm.map _ ((hmembers.flatMap_right _).trans ?_)
    rw [flatMap_filedAddresses]
    exact htriples.flatMap_right _
  have hinternal : (internalAddresses obj addresses).map Place.lookedUp
      = (internalAddresses obj addresses).map (placeOf obj) := by
    refine List.map_congr_left ?_
    intro p hp
    rw [placeOf, owner_of_mem_internal hsorted hp]
  refine ⟨references, hreferences, ?_⟩
  rw [hinternal]
  refine (hqueued.append_left _).trans ?_
  rw [← List.map_append]
  exact ((addresses_perm obj addresses).symm.map _)

/-- **SEPARATED ADDRESSES ARE KEPT**, each in the place where it belongs. -/
theorem keepsEveryAddress_of_separated
    (hsorted : addresses.Pairwise (fun p q => p.vmaddrInThisObject ≤ q.vmaddrInThisObject))
    (h : Separated obj addresses)
    (hlookup : ∃ r, (Dwarf.collectDwarfAddressDebugData fileData obj
      (addresses.filter (fun p => owner obj p = none)) result pathMapper : Call ε (R × _)) = .ok r) :
    KeepsEveryAddress ε orders fileData obj addresses result remaining pathMapper := by
  obtain ⟨⟨result', pathMapper'⟩, hdwarf⟩ := hlookup
  rw [← internalAddresses_eq_filter hsorted] at hdwarf
  obtain ⟨references, hreferences, hplaces⟩ := exists_places_of_separated hsorted h
  refine ⟨result', references, pathMapper', collect_eq_ok.mpr
    ⟨hdwarf, references, hreferences, rfl⟩, addresses.map (placeOf obj), ?_, hplaces⟩
  rw [List.forall₂_map_right_iff, List.forall₂_same]
  intro p hp
  exact isPlaceOf_placeOf h hp

/-! ## The condition is needed -/

omit [Crates] in
/-- As many places as addresses means that no map has thrown any away. -/
theorem maps_keep_of_length {references : List ObjectReference}
    (hreferences : (objectReferences orders obj.objectMap.objects
      (externalFunsByObject obj addresses) : Call ε _) = .ok references)
    (hlength : (internalAddresses obj addresses).length + (queuedPlaces references).length
      = addresses.length) :
    (externalFunsByObject obj addresses).triples id ~ flushes (assigned obj addresses) ∧
      references.flatMap members ~ (externalFunsByObject obj addresses).entries.filterMap
        (member obj.objectMap.objects) := by
  have hreadable := (objectReferences_eq_ok hreferences).1
  have hmembers := members_subperm hreferences
  set external := externalFunsByObject obj addresses with hexternal
  set objects := obj.objectMap.objects
  have htriple : ∀ t ∈ external.triples id, (objectName objects t.1).isSome := by
    intro t ht
    obtain ⟨e, he, hte⟩ := List.mem_flatMap.mp ht
    obtain ⟨e', -, rfl⟩ := List.mem_map.mp hte
    exact hreadable e he
  have hplaces : ((external.triples id).flatMap (filedUnder objects)).length
      = ((external.triples id).flatMap (·.2.2)).length := by
    rw [List.length_flatMap, List.length_flatMap]
    congr 1
    exact List.map_congr_left (fun t ht => length_filedUnder (htriple t ht))
  have hflushes : ((flushes (assigned obj addresses)).flatMap (·.2.2)).length
      = ((assigned obj addresses).flatMap (·.2)).length := by
    rw [flushes, List.flatMap_map, List.length_flatMap, List.length_flatMap]
    simp
  have hall := (addresses_perm obj addresses).length_eq
  rw [List.length_append] at hall
  -- each map keeps a part of what the one before it has, so the lengths must all be equal
  have hkept := (subperm_flatMap filedAddresses hmembers).length_le
  rw [flatMap_filedAddresses] at hkept
  have hstored := (subperm_flatMap (fun t => t.2.2)
    (triples_subperm obj addresses)).length_le
  rw [← hexternal] at hstored
  have hqueued : (queuedPlaces references).length
      = ((references.flatMap members).flatMap filedAddresses).length := List.length_map ..
  constructor
  · refine perm_of_length_flatMap_le _ (triples_subperm obj addresses) (fun t ht => flush_ne_nil ht) ?_
    omega
  · refine perm_of_length_flatMap_le filedAddresses hmembers ?_ ?_
    · intro m hm
      obtain ⟨e, he, hem⟩ := List.mem_filterMap.mp hm
      obtain ⟨t, ht, -, hte⟩ := exists_triple_of_mem he
      obtain ⟨file, -, rfl⟩ := Option.map_eq_some_iff.mp hem
      intro hnil
      have := List.flatMap_eq_nil_iff.mp hnil t.2 hte
      exact flush_ne_nil ((triples_subperm obj addresses).subset ht) (List.map_eq_nil_iff.mp this)
    · rw [flatMap_filedAddresses]
      omega

omit [Crates] in
/-- Addresses that have all been queued are separated, where the covered ones have owners. -/
theorem Separated.of_length {references : List ObjectReference}
    (hsorted : addresses.Pairwise (fun p q => p.vmaddrInThisObject ≤ q.vmaddrInThisObject))
    (hcovered : ∀ p ∈ addresses, ∀ e ∈ obj.objectMap.symbols, Covers e p → (owner obj p).isSome)
    (hreferences : (objectReferences orders obj.objectMap.objects
      (externalFunsByObject obj addresses) : Call ε _) = .ok references)
    (hlength : (internalAddresses obj addresses).length + (queuedPlaces references).length
      = addresses.length) : Separated obj addresses := by
  obtain ⟨htriples, hmembers⟩ := maps_keep_of_length hreferences hlength
  have hreadable := (objectReferences_eq_ok hreferences).1
  -- the owner of an address is an entry of the outer map
  have hentry : ∀ p ∈ addresses, ∀ e, owner obj p = some e →
      ∃ d ∈ (externalFunsByObject obj addresses).entries, d.1 = e.objectIndex := by
    intro p hp e howner
    obtain ⟨hits, hhits, -⟩ := exists_assigned_of_owner hsorted hp howner
    have hflush := htriples.mem_iff.mpr (List.mem_map.mpr ⟨_, hhits, rfl⟩)
    obtain ⟨d, hd, hdt⟩ := List.mem_flatMap.mp hflush
    obtain ⟨d', -, heq⟩ := List.mem_map.mp hdt
    exact ⟨d, hd, (Prod.mk.inj heq).1⟩
  refine ⟨hcovered, ?_, ?_, ?_⟩
  · intro p hp e howner
    obtain ⟨d, hd, hindex⟩ := hentry p hp e howner
    exact hindex ▸ hreadable d hd
  · intro p hp q hq e f he hf hindex hname
    obtain ⟨hitsE, hE, -⟩ := exists_assigned_of_owner hsorted hp he
    obtain ⟨hitsF, hF, -⟩ := exists_assigned_of_owner hsorted hq hf
    have heq := List.inj_on_of_nodup_map ((triples_perm_iff obj addresses).mp htriples) hE hF
      (Prod.ext hindex hname)
    exact (Prod.mk.inj heq).1
  · intro p hp q hq e f he hf m hm hm'
    obtain ⟨d, hd, hdi⟩ := hentry p hp e he
    obtain ⟨d', hd', hdi'⟩ := hentry q hq f hf
    have hnodup := (members_perm_iff hreferences).mp hmembers
    by_contra hne
    rw [archiveKeys, List.Nodup, List.pairwise_filterMap] at hnodup
    have hsymm : Std.Symm (fun d d' : Nat × FunctionsWithAddresses =>
        ∀ m, archiveMember obj.objectMap.objects d.1 = some m → ∀ m',
          archiveMember obj.objectMap.objects d'.1 = some m' → m ≠ m') :=
      ⟨fun d d' h m hm m' hm' => (h m' hm' m hm).symm⟩
    refine hnodup.forall hd hd' ?_ m (hdi ▸ hm) m (hdi' ▸ hm') rfl
    rintro rfl
    exact hne (hdi.symm.trans hdi')

/-- **ONLY SEPARATED ADDRESSES ARE KEPT**. -/
theorem KeepsEveryAddress.separated
    (hsorted : addresses.Pairwise (fun p q => p.vmaddrInThisObject ≤ q.vmaddrInThisObject))
    (h : KeepsEveryAddress ε orders fileData obj addresses result remaining pathMapper) :
    Separated obj addresses ∧
      ∃ r, (Dwarf.collectDwarfAddressDebugData fileData obj
        (addresses.filter (fun p => owner obj p = none)) result pathMapper : Call ε (R × _))
          = .ok r := by
  obtain ⟨result', references, pathMapper', hcollect, places, hforall, hperm⟩ := h
  obtain ⟨hdwarf, references', hreferences, happend⟩ := collect_eq_ok.mp hcollect
  rw [← List.append_cancel_left happend] at hreferences
  have hlength : (internalAddresses obj addresses).length + (queuedPlaces references).length
      = addresses.length := by
    rw [hforall.length_eq, ← hperm.length_eq, List.length_append, List.length_map]
  refine ⟨Separated.of_length hsorted ?_ hreferences hlength,
    _, internalAddresses_eq_filter hsorted ▸ hdwarf⟩
  intro p hp e he hcovers
  cases howner : owner obj p with
  | some f => rfl
  | none =>
      have hin : p ∈ internalAddresses obj addresses := by
        rw [internalAddresses_eq_filter hsorted]
        exact List.mem_filter.mpr ⟨hp, decide_eq_true howner⟩
      have hplace : Place.lookedUp p ∈ places := hperm.mem_iff.mp
        (List.mem_append_left _ (List.mem_map.mpr ⟨p, hin, rfl⟩))
      obtain ⟨q, -, heq, huncovered⟩ := exists_of_forall₂_of_mem hforall hplace
      rw [← heq] at huncovered
      exact absurd hcovers (huncovered e he)

/-- **WHEN NO ADDRESS IS LOST**: exactly when the addresses are separated and the
    lookup of those without an owner answers. -/
theorem keepsEveryAddress_iff
    (hsorted : addresses.Pairwise (fun p q => p.vmaddrInThisObject ≤ q.vmaddrInThisObject)) :
    KeepsEveryAddress ε orders fileData obj addresses result remaining pathMapper ↔
      Separated obj addresses ∧
        ∃ r, (Dwarf.collectDwarfAddressDebugData fileData obj
          (addresses.filter (fun p => owner obj p = none)) result pathMapper : Call ε (R × _))
            = .ok r :=
  ⟨fun h => h.separated hsorted, fun h => keepsEveryAddress_of_separated hsorted h.1 h.2⟩

end Exact

end Property

/-! ## Two functions of one name -/

section Samples

local instance : Platform := unix

local instance : Crates := Crates.nothing

def sampleOrders : Orders := ⟨.listed _, .listed _, .listed _⟩

def sampleData : RangeReadRef := FileContents.fullRange (.zeros 4096)

/-- Two functions with the given names, linked from `/a.o`. -/
def twoFunctions (name name' : String) : ObjectFile :=
  { ObjectFile.bare with
    objectMap := ⟨[⟨0x10, 0x10, asBytes name, 0⟩, ⟨0x20, 0x10, asBytes name', 0⟩],
      [asBytes "/a.o"], by simp⟩ }

/-- An address in each of them. -/
def twoAddresses : List AddressPair := [⟨1, 0x11⟩, ⟨2, 0x22⟩]

theorem keepsEveryAddress_iff_twoFunctions :
    KeepsEveryAddress Unit sampleOrders sampleData (twoFunctions "f" "g") twoAddresses
        (⟨[]⟩ : Recorder) [] (PathMapper.new .noLocalSourceFileAccess) ↔
      Separated (twoFunctions "f" "g") twoAddresses ∧
        ∃ r, (Dwarf.collectDwarfAddressDebugData sampleData (twoFunctions "f" "g")
          (twoAddresses.filter (fun p => owner (twoFunctions "f" "g") p = none)) (⟨[]⟩ : Recorder)
          (PathMapper.new .noLocalSourceFileAccess) : Call Unit _) = .ok r :=
  keepsEveryAddress_iff (by simp [twoAddresses])

/-- Two static functions `f` of one object file: the addresses in the first are lost. -/
theorem not_keepsEveryAddress_twoFunctions :
    ¬ KeepsEveryAddress Unit sampleOrders sampleData (twoFunctions "f" "f") twoAddresses
      (⟨[]⟩ : Recorder) [] (PathMapper.new .noLocalSourceFileAccess) := by
  intro h
  obtain ⟨hseparated, -⟩ := h.separated (by simp [twoAddresses])
  have heq := hseparated.functions ⟨1, 0x11⟩ (by decide) ⟨2, 0x22⟩ (by decide)
    ⟨0x10, 0x10, asBytes "f", 0⟩ ⟨0x20, 0x10, asBytes "f", 0⟩ (by decide) (by decide) rfl rfl
  exact absurd (congrArg ObjectMapEntry.address heq) (by decide)

end Samples

end ProfilerGetSymbols.AddressSplit
