import ProfilerGetSymbols.ObjectReferences

/-! # The single-pass matcher — which addresses a function covers

    `match_funs_to_addresses` walks over functions and addresses at once.  On
    sorted lists its two outputs can be said without the walk: the internal
    addresses are those that no function covers, and what is filed under a
    function comes from an address that it covers, each address at most once.

    Functions may overlap, nest, repeat or be empty, and addresses may repeat;
    only a function that reaches beyond `2 ^ 64`, or is `2 ^ 32` long, is out of
    the matcher's reach. -/

namespace ProfilerGetSymbols.ObjectReferences

open ProgLib
open scoped List

/-- The address lies in the function. -/
def Covers (fun_ : ObjectMapEntry) (p : AddressPair) : Prop :=
  fun_.address ≤ p.vmaddrInThisObject ∧ p.vmaddrInThisObject < fun_.address + fun_.size

instance : DecidableRel Covers := fun _ _ => inferInstanceAs (Decidable (_ ∧ _))

/-- Every address in the map with the object index and the name it is filed under. -/
def filedUnderNames (external : HashMap Nat FunctionsWithAddresses) :
    List (Nat × Bytes × AddressWithOffset) :=
  (external.triples id).flatMap (fun t => t.2.2.map (fun a => (t.1, t.2.1, a)))

/-- An address as a function files it: the exact offset from the function's start. -/
def filing (fun_ : ObjectMapEntry) (p : AddressPair) : Nat × Bytes × AddressWithOffset :=
  (fun_.objectIndex, fun_.name,
    ⟨p.originalRelativeAddress, p.vmaddrInThisObject - fun_.address⟩)

/-- **WHAT A CLASSIFICATION IS**. -/
structure Classified (functionSymbols : List ObjectMapEntry) (addresses : List AddressPair)
    (external : HashMap Nat FunctionsWithAddresses) (internal : List AddressPair) : Prop where
  /-- The internal addresses are those that no function covers, in their order. -/
  internal_eq : internal = addresses.filter (fun p => ¬ ∃ fun_ ∈ functionSymbols, Covers fun_ p)
  internal_sorted : internal.Pairwise (fun p q => p.vmaddrInThisObject ≤ q.vmaddrInThisObject)
  /-- What is filed comes from an address that the function covers. -/
  filed_covered : ∀ t ∈ filedUnderNames external, ∃ p ∈ addresses, ∃ fun_ ∈ functionSymbols,
    Covers fun_ p ∧ t = filing fun_ p ∧ t.2.2.offsetFromFunctionStart < fun_.size
  /-- No address of the list is filed twice. -/
  filed_once : ∃ place : AddressPair → Option ObjectMapEntry,
    (∀ p fun_, place p = some fun_ → fun_ ∈ functionSymbols ∧ Covers fun_ p) ∧
    filedUnderNames external <+~
      addresses.filterMap (fun p => (place p).map (fun fun_ => filing fun_ p))
  /-- An address is filed under the first function that covers it, where no later one has the
      same object index and name. -/
  filed_first : ∀ before fun_ after, functionSymbols = before ++ fun_ :: after →
    (∀ later ∈ after, (later.objectIndex, later.name) ≠ (fun_.objectIndex, fun_.name)) →
    ∀ p ∈ addresses, Covers fun_ p → (∀ earlier ∈ before, ¬ Covers earlier p) →
      filing fun_ p ∈ filedUnderNames external

section Sorted

variable {funs : List ObjectMapEntry} {addresses : List AddressPair}

/-- Without a wrap around, the tests of the loop say what they seem to say. -/
theorem hits_iff_covers {fun_ : ObjectMapEntry} (h : fun_.address + fun_.size < 2 ^ 64)
    (p : AddressPair) : Hits fun_ p ↔ Covers fun_ p := by
  rw [Hits, u64Add_of_lt h]
  exact Iff.rfl

/-- The first function in the list that the address hits. -/
def firstHit (funs : List ObjectMapEntry) (p : AddressPair) : Option ObjectMapEntry :=
  funs.find? (fun f => Hits f p)

theorem firstHit_eq_none_iff (hfit : ∀ f ∈ funs, f.address + f.size < 2 ^ 64) (p : AddressPair) :
    firstHit funs p = none ↔ ¬ ∃ f ∈ funs, Covers f p := by
  rw [firstHit, List.find?_eq_none]
  constructor
  · rintro h ⟨f, hf, hcovers⟩
    exact h f hf (by simpa using (hits_iff_covers (hfit f hf) p).mpr hcovers)
  · intro h f hf hhit
    exact h ⟨f, hf, (hits_iff_covers (hfit f hf) p).mp (by simpa using hhit)⟩

theorem covers_of_firstHit (hfit : ∀ f ∈ funs, f.address + f.size < 2 ^ 64) {p : AddressPair}
    {f : ObjectMapEntry} (h : firstHit funs p = some f) : f ∈ funs ∧ Covers f p := by
  have hf := List.mem_of_find?_eq_some h
  exact ⟨hf, (hits_iff_covers (hfit f hf) p).mp (by simpa using List.find?_some h)⟩

/-- A sublist that holds every element with a property, and no other, is the filter. -/
theorem eq_filter_of_sublist {α : Type} {q : α → Bool} {l l' : List α} (hsub : l'.Sublist l)
    (hall : ∀ a ∈ l', q a = true) (hlen : (l.filter q).length ≤ l'.length) :
    l' = l.filter q := by
  have hfilter := hsub.filter q
  rw [List.filter_eq_self.mpr hall] at hfilter
  exact hfilter.eq_of_length_le hlen

/-- The internal addresses are those without a first hit. -/
theorem internal_eq_filter (hfuns : funs.Pairwise (fun f g => f.address ≤ g.address))
    (haddresses : addresses.Pairwise (fun p q => p.vmaddrInThisObject ≤ q.vmaddrInThisObject)) :
    (split funs addresses).rest = addresses.filter (fun p => (firstHit funs p).isNone) := by
  obtain ⟨hassigned, hrest⟩ := sweep_first (ascending hfuns haddresses).inTime
  have hnone : ∀ p ∈ (split funs addresses).rest, (firstHit funs p).isNone = true := by
    intro p hp
    rw [firstHit, hrest p hp]
    rfl
  refine eq_filter_of_sublist (sweep_rest_sublist Past Hits funs addresses) hnone ?_
  -- nothing that is assigned passes the filter
  have hsome : ((split funs addresses).assigned.flatMap (·.2)).filter
      (fun p => (firstHit funs p).isNone) = [] := by
    rw [List.filter_eq_nil_iff]
    intro p hp
    obtain ⟨e, he, hpe⟩ := List.mem_flatMap.mp hp
    rw [firstHit, hassigned e he p hpe]
    simp
  have hperm := (sweep_perm Past Hits funs addresses).filter (fun p => (firstHit funs p).isNone)
  rw [List.filter_append, hsome, List.append_nil] at hperm
  exact hperm.length_eq.le.trans (List.length_filter_le _ _)

/-- What the map holds is part of what the pass assigns. -/
theorem filedUnderNames_subperm (funs : List ObjectMapEntry) (addresses : List AddressPair) :
    filedUnderNames (matchFunsToAddresses funs addresses).1 <+~
      (split funs addresses).assigned.flatMap (fun e =>
        e.2.map (fun p => (e.1.objectIndex, e.1.name, withOffset e.1 p))) := by
  have hkept := HashMap.triples_insertAllIn_subperm (fun a b hab => eq_of_beq hab)
    (flushes (split funs addresses).assigned) (f := id)
    (HashMap.empty : HashMap Nat FunctionsWithAddresses)
  rw [HashMap.triples_empty, List.nil_append] at hkept
  have hfiled := subperm_flatMap (fun t : Nat × Bytes × List AddressWithOffset =>
    t.2.2.map (fun a => (t.1, t.2.1, a))) hkept
  rw [filedUnderNames, matchFunsToAddresses_eq]
  refine hfiled.trans (List.Perm.of_eq ?_).subperm
  rw [flushes, List.map_map, List.flatMap_map]
  refine List.flatMap_congr ?_
  intro e _
  exact List.map_map

/-- The offset in a function is less than its size, so the cast to `u32` keeps it. -/
theorem filing_eq {f : ObjectMapEntry} {p : AddressPair} (hsize : f.size < 2 ^ 32)
    (hcovers : Covers f p) : (f.objectIndex, f.name, withOffset f p) = filing f p := by
  obtain ⟨hlo, hhi⟩ := hcovers
  have hoffset : asU32 (p.vmaddrInThisObject - f.address) = p.vmaddrInThisObject - f.address :=
    asU32_of_lt (by omega)
  rw [withOffset, hoffset]
  rfl

/-- What the pass assigns, address by address. -/
theorem assigned_perm (hfuns : funs.Pairwise (fun f g => f.address ≤ g.address))
    (hwidth : ∀ f ∈ funs, f.address + f.size < 2 ^ 64 ∧ f.size < 2 ^ 32)
    (haddresses : addresses.Pairwise (fun p q => p.vmaddrInThisObject ≤ q.vmaddrInThisObject)) :
    (split funs addresses).assigned.flatMap (fun e =>
        e.2.map (fun p => (e.1.objectIndex, e.1.name, withOffset e.1 p)))
      ~ addresses.filterMap (fun p => (firstHit funs p).map (fun f => filing f p)) := by
  obtain ⟨hassigned, hrest⟩ := sweep_first (ascending hfuns haddresses).inTime
  have hperm := (sweep_perm Past Hits funs addresses).filterMap
    (fun p => (firstHit funs p).map (fun f => filing f p))
  refine List.Perm.trans (List.Perm.of_eq ?_) hperm.symm
  rw [List.filterMap_append, List.filterMap_eq_nil_iff.mpr (fun p hp => by
    rw [firstHit, hrest p hp]
    rfl), List.nil_append, List.filterMap_flatMap]
  refine List.flatMap_congr ?_
  intro e he
  rw [← List.filterMap_eq_map]
  refine List.filterMap_congr ?_
  intro p hp
  have hfirst : firstHit funs p = some e.1 := hassigned e he p hp
  obtain ⟨hf, hcovers⟩ := covers_of_firstHit (fun f hf => (hwidth f hf).1) hfirst
  rw [hfirst, Option.map_some, ← filing_eq (hwidth e.1 hf).2 hcovers]
  rfl

/-- An address with a first hit is assigned to it. -/
theorem exists_assigned_of_firstHit
    (hfuns : funs.Pairwise (fun f g => f.address ≤ g.address))
    (haddresses : addresses.Pairwise (fun p q => p.vmaddrInThisObject ≤ q.vmaddrInThisObject))
    {p : AddressPair} (hp : p ∈ addresses) {f : ObjectMapEntry} (hfirst : firstHit funs p = some f) :
    ∃ hits, (f, hits) ∈ (split funs addresses).assigned ∧ p ∈ hits := by
  obtain ⟨hassigned, hrest⟩ := sweep_first (ascending hfuns haddresses).inTime
  rcases List.mem_append.mp ((sweep_perm Past Hits funs addresses).mem_iff.mp hp) with hin | hout
  · rw [firstHit, hrest p hin] at hfirst
    cases hfirst
  · obtain ⟨e, he, hpe⟩ := List.mem_flatMap.mp hout
    have heq : some e.1 = some f := (hassigned e he p hpe).symm.trans hfirst
    obtain rfl := Option.some.inj heq
    exact ⟨e.2, he, hpe⟩

/-- The functions that are assigned addresses after one that occurs once come after it. -/
theorem sublist_of_append_cons {α : Type} {a : α} {l l' before after : List α}
    (h : (l ++ a :: l').Sublist (before ++ a :: after)) (hbefore : a ∉ before) (hafter : a ∉ after) :
    l'.Sublist after := by
  obtain ⟨front, back, heq, -, hback⟩ := List.append_sublist_iff.mp h
  obtain ⟨upto, rest, rfl, hmem, hrest⟩ := List.cons_sublist_iff.mp hback
  obtain ⟨x, y, rfl⟩ := List.append_of_mem hmem
  have hsplit : (front ++ x) ++ a :: (y ++ rest) = before ++ a :: after := by
    rw [heq]
    simp only [List.append_assoc, List.cons_append]
  obtain ⟨-, -, rfl⟩ := (List.append_cons_inj_of_notMem hbefore hafter).mp hsplit.symm
  exact hrest.trans (List.sublist_append_right ..)

/-- What is assigned to a function is in the map, where no later function has its key. -/
theorem filing_mem_filedUnderNames
    (hfuns : funs.Pairwise (fun f g => f.address ≤ g.address))
    (hwidth : ∀ f ∈ funs, f.address + f.size < 2 ^ 64 ∧ f.size < 2 ^ 32)
    (haddresses : addresses.Pairwise (fun p q => p.vmaddrInThisObject ≤ q.vmaddrInThisObject))
    {before after : List ObjectMapEntry} {f : ObjectMapEntry} (heq : funs = before ++ f :: after)
    (hlater : ∀ later ∈ after, (later.objectIndex, later.name) ≠ (f.objectIndex, f.name))
    {p : AddressPair} (hp : p ∈ addresses) (hcovers : Covers f p)
    (hearlier : ∀ earlier ∈ before, ¬ Covers earlier p) :
    filing f p ∈ filedUnderNames (matchFunsToAddresses funs addresses).1 := by
  have hhits : ∀ g ∈ funs, (Hits g p ↔ Covers g p) := fun g hg => hits_iff_covers (hwidth g hg).1 p
  have hfirst : firstHit funs p = some f := by
    rw [firstHit, List.find?_eq_some_iff_append]
    refine ⟨decide_eq_true ((hhits f (by simp [heq])).mpr hcovers), before, after, heq, ?_⟩
    intro earlier hmem
    rw [Bool.not_eq_true', decide_eq_false_iff_not, hhits earlier (by simp [heq, hmem])]
    exact hearlier earlier hmem
  obtain ⟨hits, hassigned, hpe⟩ := exists_assigned_of_firstHit hfuns haddresses hp hfirst
  obtain ⟨pre, post, hsplit⟩ := List.append_of_mem hassigned
  -- what is flushed after the function belongs to later ones
  have hpost : (post.map Prod.fst).Sublist after := by
    have hsub := sweep_ranges_sublist Past Hits funs addresses
    rw [← split, hsplit, heq, List.map_append, List.map_cons] at hsub
    exact sublist_of_append_cons hsub (fun h => hearlier f h hcovers) (fun h => hlater f h rfl)
  have hkeys : ∀ u ∈ flushes post, (id u.1, u.2.1) ≠ (f.objectIndex, f.name) := by
    intro u hu
    obtain ⟨e, he, rfl⟩ := List.mem_map.mp hu
    exact hlater e.1 (hpost.subset (List.mem_map_of_mem he))
  have hkept := HashMap.mem_triples_insertAllIn (f := id) (fun a b hab => eq_of_beq hab)
    (HashMap.empty : HashMap Nat FunctionsWithAddresses) (flushes pre)
    (f.objectIndex, f.name, hits.map (withOffset f)) hkeys
  rw [filedUnderNames, matchFunsToAddresses_eq, hsplit, flushes, List.map_append, List.map_cons,
    ← filing_eq (hwidth f (by simp [heq])).2 hcovers]
  exact List.mem_flatMap.mpr ⟨_, hkept, List.mem_map.mpr ⟨_, List.mem_map_of_mem hpe, rfl⟩⟩

end Sorted

/-- **THE MATCHER CLASSIFIES EVERY ADDRESS**, on sorted lists of functions and of
    addresses. -/
theorem matchFunsToAddresses_classifies (functionSymbols : List ObjectMapEntry)
    (addresses : List AddressPair)
    (hfuns : functionSymbols.Pairwise (fun f g => f.address ≤ g.address))
    (hwidth : ∀ f ∈ functionSymbols, f.address + f.size < 2 ^ 64 ∧ f.size < 2 ^ 32)
    (haddresses : addresses.Pairwise (fun p q => p.vmaddrInThisObject ≤ q.vmaddrInThisObject)) :
    Classified functionSymbols addresses (matchFunsToAddresses functionSymbols addresses).1
      (matchFunsToAddresses functionSymbols addresses).2 := by
  have hfit : ∀ f ∈ functionSymbols, f.address + f.size < 2 ^ 64 := fun f hf => (hwidth f hf).1
  have hrest : (matchFunsToAddresses functionSymbols addresses).2
      = (split functionSymbols addresses).rest := by rw [matchFunsToAddresses_eq]
  have honce := (filedUnderNames_subperm functionSymbols addresses).trans
    (assigned_perm hfuns hwidth haddresses).subperm
  refine ⟨?_, ?_, ?_, ⟨firstHit functionSymbols, fun p f h => covers_of_firstHit hfit h, honce⟩, ?_⟩
  · rw [hrest, internal_eq_filter hfuns haddresses]
    refine List.filter_congr ?_
    intro p _
    rw [Bool.eq_iff_iff, Option.isNone_iff_eq_none, firstHit_eq_none_iff hfit, decide_eq_true_iff]
  · rw [hrest]
    exact haddresses.sublist (sweep_rest_sublist Past Hits _ _)
  · intro t ht
    obtain ⟨p, hp, hplace⟩ := List.mem_filterMap.mp (honce.subset ht)
    obtain ⟨f, hfirst, rfl⟩ := Option.map_eq_some_iff.mp hplace
    obtain ⟨hf, hcovers⟩ := covers_of_firstHit hfit hfirst
    refine ⟨p, hp, f, hf, hcovers, rfl, ?_⟩
    obtain ⟨hlo, hhi⟩ := hcovers
    show p.vmaddrInThisObject - f.address < f.size
    omega
  · intro before f after heq hlater p hp hcovers hearlier
    exact filing_mem_filedUnderNames hfuns hwidth haddresses heq hlater hp hcovers hearlier

/-- Two functions, one nested in the other, and three addresses: before both, in
    both, and in the outer one only. -/
theorem matchFunsToAddresses_classifies_nested :
    let funs : List ObjectMapEntry := [⟨16, 32, [102], 0⟩, ⟨20, 4, [103], 1⟩]
    let addresses : List AddressPair := [⟨1, 3⟩, ⟨2, 21⟩, ⟨3, 40⟩]
    Classified funs addresses (matchFunsToAddresses funs addresses).1
      (matchFunsToAddresses funs addresses).2 ∧
    filedUnderNames (matchFunsToAddresses funs addresses).1
      = [(0, [102], ⟨2, 5⟩), (0, [102], ⟨3, 24⟩)] ∧
    (matchFunsToAddresses funs addresses).2 = [⟨1, 3⟩] := by
  intro funs addresses
  exact ⟨matchFunsToAddresses_classifies funs addresses (by decide) (by decide) (by decide), by decide,
    by decide⟩

end ProfilerGetSymbols.ObjectReferences
