import ProfilerGetSymbols.AddressSplit
import ProfilerGetSymbols.CachePanics

/-! # Damaged object maps — when collecting the references returns

    An object map comes from the file as it is: entries may begin and end
    anywhere, and an object path may be any bytes.  In a build with overflow
    checks the pass over functions and addresses panics where an entry that it
    compares with an address ends beyond `2 ^ 64`; the filing panics at a path
    that is not UTF-8; and the maps drop addresses at a name that is taken.

    `Intact` says all of it of the map and the addresses before the call.  Only
    the first function that ends beyond all addresses can be compared and
    overflow, since functions before it end below an address, and the pass
    never comes to those after it. -/

namespace ProfilerGetSymbols.DamagedMaps

open ProgLib Paths ObjectReferences AddressSplit
open scoped List

variable {ε : Type}

/-! ## The pass with overflow checks -/

namespace Checked

open Cache.Checked

def matchFun (fun_ : ObjectMapEntry) : List AddressPair → List AddressWithOffset →
    List AddressPair → Call ε (List AddressWithOffset × List AddressPair × List AddressPair)
  | [], curFunAddresses, internalAddresses => return (curFunAddresses, internalAddresses, [])
  | addressPair :: addresses, curFunAddresses, internalAddresses =>
      if fun_.address > addressPair.vmaddrInThisObject then
        matchFun fun_ addresses curFunAddresses (internalAddresses ++ [addressPair])
      else do
        let funEnd ← add fun_.address fun_.size
        if addressPair.vmaddrInThisObject ≥ funEnd then
          return (curFunAddresses, internalAddresses, addressPair :: addresses)
        else
          let offset ← sub addressPair.vmaddrInThisObject fun_.address
          matchFun fun_ addresses
            (curFunAddresses ++ [⟨addressPair.originalRelativeAddress, asU32 offset⟩])
            internalAddresses

def matchFuns : List ObjectMapEntry → List AddressPair → HashMap Nat FunctionsWithAddresses →
    List AddressPair → Call ε (HashMap Nat FunctionsWithAddresses × List AddressPair)
  | [], addresses, externalFunsByObject, internalAddresses =>
      return (externalFunsByObject, internalAddresses ++ addresses)
  | fun_ :: funs, addresses, externalFunsByObject, internalAddresses => do
      let (curFunAddresses, internalAddresses, addresses) ←
        matchFun fun_ addresses [] internalAddresses
      matchFuns funs addresses (flushCurFun externalFunsByObject fun_ curFunAddresses)
        internalAddresses

def matchFunsToAddresses (functionSymbols : List ObjectMapEntry) (addresses : List AddressPair) :
    Call ε (HashMap Nat FunctionsWithAddresses × List AddressPair) :=
  matchFuns functionSymbols addresses .empty []

end Checked

/-- `collect_debug_info_and_object_references` without the lookup of the
    internal addresses: these, and the references that are queued. -/
def collectObjectReferences [Platform] (orders : Orders) (obj : ObjectFile)
    (addresses : List AddressPair) : Call ε (List AddressPair × List ObjectReference) := do
  let (externalFunsByObject, internalAddresses) ←
    Checked.matchFunsToAddresses (objectMapSymbols obj) addresses
  let references ← objectReferences orders obj.objectMap.objects externalFunsByObject
  return (internalAddresses, references)

/-! ## What the pass compares -/

/-- Every address is below. -/
def Beyond (addresses : List AddressPair) (n : Nat) : Prop :=
  ∀ p ∈ addresses, p.vmaddrInThisObject < n

instance (addresses : List AddressPair) : DecidablePred (Beyond addresses) := fun _ =>
  inferInstanceAs (Decidable (∀ p ∈ addresses, _))

/-- The first function that ends beyond all addresses begins beyond them too, or
    ends before `2 ^ 64`. -/
def EndsFit (funs : List ObjectMapEntry) (addresses : List AddressPair) : Prop :=
  ∀ f, funs.find? (fun f => Beyond addresses (f.address + f.size)) = some f →
    Beyond addresses f.address ∨ f.address + f.size < 2 ^ 64

theorem beyond_cons {p : AddressPair} {addresses : List AddressPair} {n : Nat} :
    Beyond (p :: addresses) n ↔ p.vmaddrInThisObject < n ∧ Beyond addresses n :=
  List.forall_mem_cons

theorem beyond_nil (n : Nat) : Beyond [] n := List.forall_mem_nil _

theorem not_beyond_iff {addresses : List AddressPair} {n : Nat} :
    ¬ Beyond addresses n ↔ ∃ p ∈ addresses, n ≤ p.vmaddrInThisObject := by
  rw [Beyond]
  push Not
  rfl

/-- The pass over one function panics where it compares an address with a function
    that ends beyond `2 ^ 64`. -/
theorem Checked.matchFun_eq_ok {fun_ : ObjectMapEntry} {addresses internal : List AddressPair}
    {cur : List AddressWithOffset}
    {r : List AddressWithOffset × List AddressPair × List AddressPair} :
    (Checked.matchFun fun_ addresses cur internal : Call ε _) = .ok r ↔
      (Beyond addresses fun_.address ∨ fun_.address + fun_.size < 2 ^ 64) ∧
        ObjectReferences.matchFun fun_ addresses cur internal = r := by
  induction addresses generalizing cur internal with
  | nil =>
      rw [Checked.matchFun, ObjectReferences.matchFun, Outcome.pure_eq_ok, Outcome.ok.injEq]
      exact ⟨fun h => ⟨Or.inl (beyond_nil _), h⟩, And.right⟩
  | cons p addresses ih =>
      rw [Checked.matchFun, ObjectReferences.matchFun, beyond_cons]
      by_cases hbelow : fun_.address > p.vmaddrInThisObject
      · rw [if_pos hbelow, if_pos hbelow, ih]
        simp [hbelow]
      · rw [if_neg hbelow, if_neg hbelow]
        -- the sum is taken for the first address at or beyond the function's start
        by_cases hfits : fun_.address + fun_.size < 2 ^ 64
        · rw [Cache.Checked.add_of_lt hfits, u64Add_of_lt hfits, Outcome.ok_bind]
          by_cases hend : p.vmaddrInThisObject ≥ fun_.address + fun_.size
          · rw [if_pos hend, if_pos hend, Outcome.pure_eq_ok, Outcome.ok.injEq]
            exact ⟨fun h => ⟨Or.inr hfits, h⟩, And.right⟩
          · rw [if_neg hend, if_neg hend, Cache.Checked.sub_of_le (by omega), Outcome.ok_bind, ih]
            exact and_congr_left fun _ => iff_of_true (Or.inr hfits) (Or.inr hfits)
        · rw [Cache.Checked.add_of_le (by omega)]
          constructor
          · intro h
            cases h
          · rintro ⟨⟨hlt, -⟩ | hlt, -⟩
            · exact absurd hlt hbelow
            · exact absurd hlt hfits

section Sorted

variable {funs : List ObjectMapEntry} {addresses : List AddressPair}

/-- What is left at an address that is past has the last address. -/
theorem beyond_dropWhile {q : AddressPair → Bool} {p : AddressPair} {n : Nat}
    (hsorted : addresses.Pairwise (fun p q => p.vmaddrInThisObject ≤ q.vmaddrInThisObject))
    (hp : p ∈ addresses) (hq : ¬ q p = true) :
    Beyond (addresses.dropWhile q) n ↔ Beyond addresses n := by
  constructor
  · intro h a ha
    rw [← List.takeWhile_append_dropWhile (p := q) (l := addresses)] at hsorted ha hp
    have hleft : p ∈ addresses.dropWhile q := by
      rcases List.mem_append.mp hp with htaken | hleft
      · exact absurd (List.mem_takeWhile_imp htaken) hq
      · exact hleft
    rcases List.mem_append.mp ha with htaken | hin
    · exact ((List.pairwise_append.mp hsorted).2.2 a htaken p hleft).trans_lt (h p hleft)
    · exact h a hin
  · intro h a ha
    exact h a ((List.dropWhile_sublist q).subset ha)

theorem endsFit_nil (addresses : List AddressPair) : EndsFit [] addresses := by
  intro f hf
  cases hf

/-- The condition is about the function at hand and about the pass over the others. -/
theorem endsFit_cons {f : ObjectMapEntry}
    (hsorted : addresses.Pairwise (fun p q => p.vmaddrInThisObject ≤ q.vmaddrInThisObject))
    (hbound : Beyond addresses (2 ^ 64)) :
    EndsFit (f :: funs) addresses ↔
      (Beyond addresses f.address ∨ f.address + f.size < 2 ^ 64) ∧
        EndsFit funs (addresses.dropWhile (fun p => ¬ Past f p)) := by
  -- a function that ends beyond all addresses is never left
  by_cases hbeyond : Beyond addresses (f.address + f.size)
  · have hfirst : EndsFit (f :: funs) addresses ↔
        (Beyond addresses f.address ∨ f.address + f.size < 2 ^ 64) := by
      rw [EndsFit, List.find?_cons_of_pos (by simpa using hbeyond)]
      exact ⟨fun h => h f rfl, fun h g hg => Option.some.inj hg ▸ h⟩
    rw [hfirst, iff_self_and]
    intro hfit
    -- no address is past, so none is left
    have hnil : addresses.dropWhile (fun p => ¬ Past f p) = [] := by
      rw [List.dropWhile_eq_nil_iff]
      intro p hp
      refine decide_eq_true ?_
      rintro ⟨hlo, hhi⟩
      have := hbeyond p hp
      rcases hfit with hahead | hfits
      · have := hahead p hp
        omega
      · rw [u64Add_of_lt hfits] at hhi
        omega
    rw [hnil]
    exact fun g _ => Or.inl (beyond_nil _)
  · -- an address at or after the end: the end fits, and the last address stays for later
    obtain ⟨p, hp, hend⟩ := not_beyond_iff.mp hbeyond
    have := hbound p hp
    have hfits : f.address + f.size < 2 ^ 64 := by omega
    have hpast : Past f p := ⟨by omega, by rw [u64Add_of_lt hfits]; exact hend⟩
    have hleft : ∀ n, Beyond (addresses.dropWhile (fun p => ¬ Past f p)) n ↔ Beyond addresses n :=
      fun n => beyond_dropWhile hsorted hp (by simpa using hpast)
    rw [EndsFit, List.find?_cons_of_neg (by simpa using hbeyond), EndsFit]
    simp only [hleft, hfits, or_true, true_and]

/-- **WHEN THE PASS DOES NOT OVERFLOW**: exactly when the ends fit, and then the
    checks make no difference. -/
theorem Checked.matchFuns_eq_ok {external : HashMap Nat FunctionsWithAddresses}
    {internal : List AddressPair} {r : HashMap Nat FunctionsWithAddresses × List AddressPair}
    (hsorted : addresses.Pairwise (fun p q => p.vmaddrInThisObject ≤ q.vmaddrInThisObject))
    (hbound : Beyond addresses (2 ^ 64)) :
    (Checked.matchFuns funs addresses external internal : Call ε _) = .ok r ↔
      EndsFit funs addresses ∧ ObjectReferences.matchFuns funs addresses external internal = r := by
  induction funs generalizing addresses external internal with
  | nil =>
      rw [Checked.matchFuns, ObjectReferences.matchFuns, Outcome.pure_eq_ok, Outcome.ok.injEq]
      exact ⟨fun h => ⟨endsFit_nil addresses, h⟩, And.right⟩
  | cons f funs ih =>
      have hleft := List.dropWhile_sublist (fun p => decide (¬ Past f p)) (l := addresses)
      have hnext : ∀ (external : HashMap Nat FunctionsWithAddresses) (internal : List AddressPair),
          (Checked.matchFuns funs (addresses.dropWhile (fun p => ¬ Past f p)) external internal
            : Call ε _) = .ok r ↔ _ :=
        fun _ _ => ih (hsorted.sublist hleft) (fun p hp => hbound p (hleft.subset hp))
      rw [Checked.matchFuns, Outcome.bind_eq_ok, endsFit_cons hsorted hbound,
        ObjectReferences.matchFuns]
      constructor
      · rintro ⟨first, hfirst, hrest⟩
        obtain ⟨hfit, rfl⟩ := Checked.matchFun_eq_ok.mp hfirst
        rw [matchFun_eq] at hrest ⊢
        obtain ⟨hfits, hr⟩ := (hnext _ _).mp hrest
        exact ⟨⟨hfit, hfits⟩, hr⟩
      · rintro ⟨⟨hfit, hfits⟩, hr⟩
        refine ⟨_, Checked.matchFun_eq_ok.mpr ⟨hfit, rfl⟩, ?_⟩
        rw [matchFun_eq] at hr ⊢
        exact (hnext _ _).mpr ⟨hfits, hr⟩

/-- Where the ends fit, a covered address has an owner. -/
theorem EndsFit.isSome_owner {obj : ObjectFile} (h : EndsFit (objectMapSymbols obj) addresses)
    (hbound : Beyond addresses (2 ^ 64)) {p : AddressPair} (hp : p ∈ addresses)
    {e : ObjectMapEntry} (he : e ∈ obj.objectMap.symbols) (hcovers : Covers e p) :
    (owner obj p).isSome := by
  have hsymbols : e ∈ objectMapSymbols obj := (mem_sortByKey _).mpr he
  have howner : ∀ g ∈ objectMapSymbols obj, g.address + g.size < 2 ^ 64 →
      Covers g p → (owner obj p).isSome := by
    intro g hg hfits hcovered
    rw [owner, List.find?_isSome]
    refine ⟨g, hg, decide_eq_true ⟨hcovered.1, ?_⟩⟩
    rw [u64Add_of_lt hfits]
    exact hcovered.2
  -- the covering entry, or the first one that ends beyond all addresses
  by_cases hbeyond : Beyond addresses (e.address + e.size)
  · have hsome : ((objectMapSymbols obj).find?
        (fun f => Beyond addresses (f.address + f.size))).isSome := by
      rw [List.find?_isSome]
      exact ⟨e, hsymbols, decide_eq_true hbeyond⟩
    obtain ⟨f, hfirst⟩ := Option.isSome_iff_exists.mp hsome
    have hf := List.mem_of_find?_eq_some hfirst
    have hfbeyond : Beyond addresses (f.address + f.size) := by
      simpa using List.find?_some hfirst
    have hfe : f.address ≤ e.address := by
      rcases eq_or_ne f e with rfl | hne
      · exact le_refl _
      · obtain ⟨-, before, after, hsplit, hbefore⟩ := List.find?_eq_some_iff_append.mp hfirst
        have hpairs := objectMapSymbols_pairwise obj
        rw [hsplit] at hpairs hsymbols
        rcases List.mem_append.mp hsymbols with hin | hin
        · exact absurd hbeyond (by simpa using hbefore e hin)
        · rcases List.mem_cons.mp hin with heq | hafter
          · exact absurd heq.symm hne
          · exact (List.pairwise_cons.mp (List.pairwise_append.mp hpairs).2.1).1 e hafter
    have hlo : f.address ≤ p.vmaddrInThisObject := hfe.trans hcovers.1
    refine howner f hf ?_ ⟨hlo, hfbeyond p hp⟩
    rcases h f hfirst with hahead | hfits
    · exact absurd (hahead p hp) (not_lt.mpr hlo)
    · exact hfits
  · obtain ⟨q, hq, hend⟩ := not_beyond_iff.mp hbeyond
    exact howner e hsymbols (hend.trans_lt (hbound q hq)) hcovers

end Sorted

/-! ## Every address is collected -/

section Property

variable [Platform]

/-- The address is at the place: in the list that is looked up, or under a function of a
    queued reference. -/
def Reaches (p : AddressPair) : Place → Prop
  | .lookedUp q => q = p
  | .filed a => a.address.originalRelativeAddress = p.originalRelativeAddress

variable (ε) in
/-- The call returns, and has put every address in a place of its own. -/
def CollectsEveryAddress (orders : Orders) (obj : ObjectFile) (addresses : List AddressPair) :
    Prop :=
  ∃ internal references,
    (collectObjectReferences orders obj addresses : Call ε _) = .ok (internal, references) ∧
    ∃ places, List.Forall₂ Reaches addresses places ∧
      internal.map .lookedUp ++ queuedPlaces references ~ places

/-- What the map has to be like for the addresses. -/
structure Intact (obj : ObjectFile) (addresses : List AddressPair) : Prop where
  ends_fit : EndsFit (objectMapSymbols obj) addresses
  readable : ∀ p ∈ addresses, ∀ e, owner obj p = some e →
    (objectName obj.objectMap.objects e.objectIndex).isSome
  /-- No function name is hit twice in one object. -/
  functions : ∀ p ∈ addresses, ∀ q ∈ addresses, ∀ e f, owner obj p = some e → owner obj q = some f →
    e.objectIndex = f.objectIndex → e.name = f.name → e = f
  /-- No archive member is named by two of the objects that are hit. -/
  members : ∀ p ∈ addresses, ∀ q ∈ addresses, ∀ e f, owner obj p = some e → owner obj q = some f →
    ∀ m, archiveMember obj.objectMap.objects e.objectIndex = some m →
      archiveMember obj.objectMap.objects f.objectIndex = some m → e.objectIndex = f.objectIndex

variable {orders : Orders} {obj : ObjectFile} {addresses : List AddressPair}

theorem Intact.separated (h : Intact obj addresses) (hbound : Beyond addresses (2 ^ 64)) :
    Separated obj addresses where
  covered := fun _ hp _ he hcovers => h.ends_fit.isSome_owner hbound hp he hcovers
  readable := h.readable
  functions := h.functions
  members := h.members

/-- The call is the pass without checks, where the ends fit, and the filing. -/
theorem collectObjectReferences_eq_ok {internal : List AddressPair}
    {references : List ObjectReference}
    (hsorted : addresses.Pairwise (fun p q => p.vmaddrInThisObject ≤ q.vmaddrInThisObject))
    (hbound : Beyond addresses (2 ^ 64)) :
    (collectObjectReferences orders obj addresses : Call ε _) = .ok (internal, references) ↔
      EndsFit (objectMapSymbols obj) addresses ∧ internalAddresses obj addresses = internal ∧
        (objectReferences orders obj.objectMap.objects (externalFunsByObject obj addresses)
          : Call ε _) = .ok references := by
  rw [collectObjectReferences, Outcome.bind_eq_ok]
  constructor
  · rintro ⟨split, hsplit, hrest⟩
    obtain ⟨hfit, rfl⟩ := (Checked.matchFuns_eq_ok hsorted hbound).mp hsplit
    obtain ⟨references', hreferences, heq⟩ := Outcome.bind_eq_ok.mp hrest
    rw [Outcome.pure_eq_ok, Outcome.ok.injEq, Prod.mk.injEq] at heq
    obtain ⟨rfl, rfl⟩ := heq
    exact ⟨hfit, rfl, hreferences⟩
  · rintro ⟨hfit, rfl, hreferences⟩
    exact ⟨_, (Checked.matchFuns_eq_ok hsorted hbound).mpr ⟨hfit, rfl⟩,
      Outcome.bind_eq_ok.mpr ⟨_, hreferences, rfl⟩⟩

theorem reaches_of_isPlaceOf {p : AddressPair} {place : Place}
    (h : IsPlaceOf obj p place) : Reaches p place := by
  cases place with
  | lookedUp q => exact h.1
  | filed a =>
      obtain ⟨e, -, -, -, haddress, -⟩ := h
      show a.address.originalRelativeAddress = p.originalRelativeAddress
      rw [haddress]
      rfl

/-- **WHEN EVERY ADDRESS IS COLLECTED**: exactly when the map is intact for the
    addresses. -/
theorem collectsEveryAddress_iff
    (hsorted : addresses.Pairwise (fun p q => p.vmaddrInThisObject ≤ q.vmaddrInThisObject))
    (hbound : ∀ p ∈ addresses, p.vmaddrInThisObject < 2 ^ 64) :
    CollectsEveryAddress ε orders obj addresses ↔ Intact obj addresses := by
  constructor
  · rintro ⟨internal, references, hcall, places, hreaches, hperm⟩
    obtain ⟨hfit, rfl, hreferences⟩ := (collectObjectReferences_eq_ok hsorted hbound).mp hcall
    have hlength : (internalAddresses obj addresses).length + (queuedPlaces references).length
        = addresses.length := by
      rw [hreaches.length_eq, ← hperm.length_eq, List.length_append, List.length_map]
    have hseparated := Separated.of_length hsorted
      (fun p hp e he hcovers => hfit.isSome_owner hbound hp he hcovers) hreferences hlength
    exact ⟨hfit, hseparated.readable, hseparated.functions, hseparated.members⟩
  · intro h
    have hseparated := h.separated hbound
    obtain ⟨references, hreferences, hperm⟩ : ∃ references,
        (objectReferences orders obj.objectMap.objects (externalFunsByObject obj addresses)
          : Call ε _) = .ok references ∧
        (internalAddresses obj addresses).map .lookedUp ++ queuedPlaces references
          ~ addresses.map (placeOf obj) := exists_places_of_separated hsorted hseparated
    refine ⟨_, references, (collectObjectReferences_eq_ok hsorted hbound).mpr
      ⟨h.ends_fit, rfl, hreferences⟩, addresses.map (placeOf obj), ?_, hperm⟩
    rw [List.forall₂_map_right_iff, List.forall₂_same]
    intro p hp
    exact reaches_of_isPlaceOf (isPlaceOf_placeOf hseparated hp)

end Property

/-! ## A path that is not UTF-8 -/

section Samples

local instance : Platform := unix

/-- The two functions of the sample, each with its own name. -/
theorem collectsEveryAddress_iff_twoFunctions :
    CollectsEveryAddress Unit sampleOrders (twoFunctions "f" "g") twoAddresses ↔
      Intact (twoFunctions "f" "g") twoAddresses :=
  collectsEveryAddress_iff (by simp [twoAddresses]) (by simp [twoAddresses])

/-- A function linked from an object file whose path is no UTF-8, and an address in it. -/
def unreadablePath : ObjectFile :=
  { ObjectFile.bare with objectMap := ⟨[⟨0x10, 0x10, asBytes "f", 0⟩], [[0xff]], by simp⟩ }

theorem not_collectsEveryAddress_unreadablePath :
    ¬ CollectsEveryAddress Unit sampleOrders unreadablePath [⟨1, 0x11⟩] := by
  rintro ⟨internal, references, hcall, -⟩
  obtain ⟨-, -, hreferences⟩ := (collectObjectReferences_eq_ok
    (by simp) (by intro p hp; rw [List.mem_singleton.mp hp]; decide)).mp hcall
  have hreadable := (objectReferences_eq_ok hreferences).1 (0, _) (List.mem_singleton_self _)
  exact absurd hreadable (by decide)

end Samples

end ProfilerGetSymbols.DamagedMaps
