import ProfilerGetSymbols.Symbols

/-! # The extent of a symbol — what is reported for an address

    The lookup separates functions at the addresses of all entries, ends of
    sections and of functions included.  For an address it finds the entry at or
    below it; the entry next above that one ends the function.

    `Extent` says this of the unsorted list of entries, without the sort, the
    deduplication and the binary search of the code. -/

namespace ProfilerGetSymbols.Symbols

open ProgLib

/-- What an object has at `s`, from best to worst: the text symbols of its two tables, its
    exports, the function starts, the ends of its text sections and the function ends. -/
def entriesAt (obj : ObjectFile) (starts ends : Option (List Nat)) (s : Nat) :
    List FullSymbolListEntry :=
  (obj.symbols.filter
    (fun symbol => symbol.kind = .text ∧ relativeAddress obj symbol.address = s)).map .symbol
  ++ (obj.dynamicSymbols.filter
    (fun symbol => symbol.kind = .text ∧ relativeAddress obj symbol.address = s)).map .symbol
  ++ ((obj.exports.getD []).filter (fun exp => relativeAddress obj exp.address = s)).map .export
  ++ ((starts.getD []).filter (fun address => address = s)).map (fun _ => .synthesized)
  ++ (obj.sections.filter
    (fun text => text.kind = .text ∧ sectionEndAddress obj text = some s)).map (fun _ => .endAddress)
  ++ ((ends.getD []).filter (fun address => address = s)).map (fun _ => .endAddress)

/-- The best entry at `s`. -/
def BestEntry (obj : ObjectFile) (starts ends : Option (List Nat)) (s : Nat)
    (entry : FullSymbolListEntry) : Prop :=
  (entriesAt obj starts ends s).head? = some entry

/-- `e` is the smallest entry address above `s`. -/
structure NextEntry (obj : ObjectFile) (starts ends : Option (List Nat)) (s e : Nat) : Prop where
  isEntry : IsEntryAddress obj starts ends e
  above : s < e
  smallest : ∀ t, IsEntryAddress obj starts ends t → s < t → e ≤ t

/-- **THE EXTENT** around an address: the greatest entry address `s` at or below it,
    the readable name of the best entry there, and the size up to the smallest
    entry address above `s`, where some entry lies above the address. -/
structure Extent (obj : ObjectFile) (starts ends : Option (List Nat)) (address s : Nat)
    (name : String) (size : Nat) : Prop where
  nearest : NearestEntry obj starts ends address s
  named : ∃ entry, BestEntry obj starts ends s entry ∧ entry.name s = some name
  sized : ∃ e, NextEntry obj starts ends s e ∧ size = e - s

/-- Function starts or ends as they are given, in `u32`. -/
def AreU32 (addresses : Option (List Nat)) : Prop := ∀ address ∈ addresses.getD [], address < 2 ^ 32

variable {obj : ObjectFile} {starts ends : Option (List Nat)}

theorem sectionEndAddress_lt {s : ObjectSection} {address : Nat}
    (h : sectionEndAddress obj s = some address) : address < 2 ^ 32 := by
  simp only [sectionEndAddress] at h
  split at h
  · cases h
  · split at h
    · rename_i hlt
      exact Option.some.inj h ▸ hlt
    · cases h

/-- Every entry address is a `u32`. -/
theorem IsEntryAddress.lt {t : Nat} (h : IsEntryAddress obj starts ends t) (hstarts : AreU32 starts)
    (hends : AreU32 ends) : t < 2 ^ 32 := by
  rcases h with ⟨symbol, -, -, rfl⟩ | ⟨exp, -, rfl⟩ | hstart | ⟨s, -, -, hs⟩ | hend
  · exact asU32_lt _
  · exact asU32_lt _
  · exact hstarts t hstart
  · exact sectionEndAddress_lt hs
  · exact hends t hend

/-- An entry address is one of the entries kept. -/
theorem isEntryAddress_iff_best {t : Nat} :
    IsEntryAddress obj starts ends t ↔ t ∈ (bestEntries obj starts ends).map Prod.fst := by
  rw [isEntryAddress_iff, bestEntries, mem_map_firstByKey]

/-- The unsorted list has the entries at an address in this order. -/
theorem filter_fullSymbolList (obj : ObjectFile) (starts ends : Option (List Nat)) (s : Nat) :
    (fullSymbolList obj starts ends).filter (fun e => e.1 = s)
      = (entriesAt obj starts ends s).map (fun entry => (s, entry)) := by
  have hpiece : ∀ {α : Type} (l : List α) (key : α → Nat) (entry : α → FullSymbolListEntry),
      (l.map (fun x => (key x, entry x))).filter (fun e => e.1 = s)
        = ((l.filter (fun x => key x = s)).map entry).map (fun entry => (s, entry)) := by
    intro α l key entry
    rw [List.filter_map, List.map_map]
    refine List.map_congr_left (fun x hx => ?_)
    exact congrArg (·, entry x) (of_decide_eq_true (List.mem_filter.mp hx).2)
  have hends : ∀ l : List ObjectSection,
      (l.filterMap (fun text => (sectionEndAddress obj text).map
        (fun address => (address, FullSymbolListEntry.endAddress)))).filter (fun e => e.1 = s)
        = ((l.filter (fun text => sectionEndAddress obj text = some s)).map
          (fun _ => .endAddress)).map (fun entry => (s, entry)) := by
    intro l
    induction l with
    | nil => rfl
    | cons text l ih =>
        cases hend : sectionEndAddress obj text with
        | none => simp [hend, ih]
        | some address =>
            by_cases heq : address = s
            · simp [hend, ih, heq]
            · simp [hend, ih, heq]
  unfold fullSymbolList entriesAt
  simp only [List.filter_append, List.map_append, hpiece, hends, List.filter_filter, Bool.decide_and,
    Bool.and_comm]

/-- The best entry is the first one at its address. -/
theorem bestEntry_iff_find {s : Nat} {entry : FullSymbolListEntry} :
    BestEntry obj starts ends s entry ↔
      (fullSymbolList obj starts ends).find? (fun e => e.1 = s) = some (s, entry) := by
  rw [BestEntry, ← List.head?_filter, filter_fullSymbolList, List.head?_map]
  cases (entriesAt obj starts ends s).head? with
  | none => simp
  | some entry' => simp

/-- The entry kept at an address is the best one. -/
theorem bestEntry_iff {s : Nat} {entry : FullSymbolListEntry} :
    BestEntry obj starts ends s entry ↔ (s, entry) ∈ bestEntries obj starts ends := by
  rw [bestEntries, mem_firstByKey, bestEntry_iff_find]

/-- The first entry above the one around an address is the next one. -/
theorem Around.nextEntry {address s : Nat} {e next : Nat × FullSymbolListEntry}
    {above : List (Nat × FullSymbolListEntry)}
    (h : Around (bestEntries obj starts ends) address e (next :: above)) (hs : e.1 = s) :
    NextEntry obj starts ends s next.1 := by
  obtain ⟨-, habove, below, heq⟩ := h
  have hpw := bestEntries_pairwise obj starts ends
  rw [heq] at hpw
  obtain ⟨-, hpw', hbelow⟩ := List.pairwise_append.mp hpw
  obtain ⟨he, hrest⟩ := List.pairwise_cons.mp hpw'
  refine ⟨isEntryAddress_iff_best.mpr (by rw [heq]; simp), hs ▸ he next (by simp), ?_⟩
  intro t ht hlt
  obtain ⟨x, hx, rfl⟩ := List.mem_map.mp (isEntryAddress_iff_best.mp ht)
  rw [heq] at hx
  rcases List.mem_append.mp hx with hb | hb
  · have := hbelow x hb e (by simp)
    omega
  · rcases List.mem_cons.mp hb with rfl | hb
    · omega
    · rcases List.mem_cons.mp hb with rfl | hb
      · exact Nat.le_refl _
      · exact ((List.pairwise_cons.mp hrest).1 x hb).le

/-- Two next entries are the same. -/
theorem NextEntry.unique {s e e' : Nat} (h : NextEntry obj starts ends s e)
    (h' : NextEntry obj starts ends s e') : e = e' :=
  Nat.le_antisymm (h.smallest e' h'.isEntry h'.above) (h'.smallest e h.isEntry h.above)

/-- The extent, read off the entries that are kept. -/
theorem extent_iff_around {address s : Nat} {name : String} {size : Nat} :
    Extent obj starts ends address s name size ↔
      ∃ e next above, Around (bestEntries obj starts ends) address (s, e) (next :: above) ∧
        e.name s = some name ∧ size = next.1 - s := by
  constructor
  · rintro ⟨hnear, ⟨entry, hbest, hname⟩, e', hnext, rfl⟩
    obtain ⟨e, next, above, haround⟩ := around_bestEntries_iff.mp hnear
    refine ⟨e, next, above, haround, ?_, ?_⟩
    · -- only one entry is kept at `s`
      have hbest' := bestEntry_iff.mpr haround.mem
      rw [BestEntry, hbest, Option.some.injEq] at hbest'
      rw [← hbest', hname]
    · rw [(haround.nextEntry rfl).unique hnext]
  · rintro ⟨e, next, above, haround, hname, rfl⟩
    exact ⟨around_bestEntries_iff.mpr ⟨e, next, above, haround⟩,
      ⟨e, bestEntry_iff.mpr haround.mem, hname⟩, next.1, haround.nextEntry rfl, rfl⟩

/-- The report of an address is its extent. -/
theorem report_iff_extent (hstarts : AreU32 starts) (hends : AreU32 ends) {address s : Nat}
    {name : String} {size : Nat} :
    report (bestEntries obj starts ends) address = some (s, name, size) ↔
      Extent obj starts ends address s name size := by
  rw [report_eq_some (bestEntries_pairwise obj starts ends), extent_iff_around]
  -- the code's subtraction on `u32` is exact, the next entry being a `u32` above
  have hsize : ∀ {e next above},
      Around (bestEntries obj starts ends) address (s, e) (next :: above) →
      u32Sub next.1 s = next.1 - s := by
    intro e next above haround
    have hnext := haround.nextEntry rfl
    exact u32Sub_of_le hnext.above.le (hnext.isEntry.lt hstarts hends)
  constructor
  · rintro ⟨⟨s', e⟩, above, haround, hr⟩
    simp only [reportAround, Option.bind_eq_bind, Option.bind_eq_some_iff, Option.pure_def,
      Option.some.injEq, Prod.mk.injEq] at hr
    obtain ⟨name', hname, next, hhead, rfl, rfl, rfl⟩ := hr
    cases above with
    | nil => cases hhead
    | cons next' above =>
        obtain rfl : next' = next := Option.some.inj hhead
        exact ⟨e, next', above, haround, hname, hsize haround⟩
  · rintro ⟨e, next, above, haround, hname, rfl⟩
    refine ⟨(s, e), next :: above, haround, ?_⟩
    rw [reportAround, hname, ← hsize haround]
    rfl

/-- The address lies in its extent, in which no other entry lies. -/
theorem Extent.bounds {address s : Nat} {name : String} {size : Nat}
    (h : Extent obj starts ends address s name size) :
    s ≤ address ∧ address < s + size ∧
      ∀ t, IsEntryAddress obj starts ends t → ¬ (s < t ∧ t < s + size) := by
  obtain ⟨e, hnext, rfl⟩ := h.sized
  have hse := hnext.above
  obtain ⟨t, ht, hlt⟩ := h.nearest.notLast
  refine ⟨h.nearest.le, ?_, ?_⟩
  · -- an entry between `s` and the address would be nearer
    by_contra hle
    have hnearer := h.nearest.nearest e hnext.isEntry (by omega)
    omega
  · rintro t' ht' ⟨hlo, hhi⟩
    have := hnext.smallest t' ht' hlo
    omega

/-- Everything that the lookup does: the calls that it makes on a result. -/
theorem calls_getSymbolicationResultForAddressesFromObject (obj : ObjectFile)
    (starts ends : Option (List Nat)) (addresses : List Nat) :
    (getSymbolicationResultForAddressesFromObject Recorder addresses obj starts ends
      : Call Empty Recorder)
      = .ok ⟨[.forAddresses addresses,
          .setTotalSymbolCount (asU32 (bestEntries obj starts ends).length)]
        ++ addresses.filterMap (fun a =>
          (report (bestEntries obj starts ends) a).map (reportCall a))⟩ :=
  lookUpAddresses_recorder (bestEntries_pairwise obj starts ends) _ addresses

/-- **THE NEAREST ENTRY AND ITS EXTENT**: the lookup gives every requested address,
    in any list of addresses, the same answer: its extent, if it has one.  The
    address lies in the extent and no entry lies strictly inside. -/
theorem reportsExtents (obj : ObjectFile) (starts ends : Option (List Nat))
    (hstarts : AreU32 starts) (hends : AreU32 ends) :
    ∃ (answer : Nat → Option (Nat × String × Nat)) (symbolCount : Nat),
      (∀ addresses, (getSymbolicationResultForAddressesFromObject Recorder addresses obj starts ends
          : Call Empty Recorder)
        = .ok ⟨[.forAddresses addresses, .setTotalSymbolCount symbolCount]
          ++ addresses.filterMap (fun a => (answer a).map (reportCall a))⟩) ∧
      ∀ address s name size, answer address = some (s, name, size) ↔
        Extent obj starts ends address s name size ∧ s ≤ address ∧ address < s + size ∧
          ∀ t, IsEntryAddress obj starts ends t → ¬ (s < t ∧ t < s + size) := by
  refine ⟨report (bestEntries obj starts ends), _,
    calls_getSymbolicationResultForAddressesFromObject obj starts ends, ?_⟩
  intro address s name size
  rw [report_iff_extent hstarts hends]
  exact ⟨fun h => ⟨h, h.bounds⟩, fun h => h.1⟩

/-- An object with two aliases at 16 and the end of a function at 24: the first alias is
    reported for 20, with 8 bytes. -/
theorem reportsExtents_twoAliases :
    ∃ (answer : Nat → Option (Nat × String × Nat)) (symbolCount : Nat),
      (∀ addresses, (getSymbolicationResultForAddressesFromObject Recorder addresses twoAliases
          none (some [24]) : Call Empty Recorder)
        = .ok ⟨[.forAddresses addresses, .setTotalSymbolCount symbolCount]
          ++ addresses.filterMap (fun a => (answer a).map (reportCall a))⟩) ∧
      answer 20 = some (16, "a", 8) := by
  obtain ⟨answer, symbolCount, hcalls, hanswer⟩ :=
    reportsExtents twoAliases none (some [24]) (by simp [AreU32]) (by simp [AreU32])
  have hextent : Extent twoAliases none (some [24]) 20 16 "a" 8 := by
    refine extent_iff_around.mpr
      ⟨.symbol ⟨some "a", 16, .text⟩, (24, .endAddress), [(32, .endAddress)], ?_, rfl, rfl⟩
    exact ⟨by decide, by decide, [], by decide⟩
  exact ⟨answer, symbolCount, hcalls, (hanswer 20 16 "a" 8).mpr ⟨hextent, hextent.bounds⟩⟩

end ProfilerGetSymbols.Symbols
