import ProfilerGetSymbols.SymbolExtent

/-! # Name priority — which of the names at an address is shown

    At one address there may be symbols, dynamic symbols, exports and the
    placeholder of a function start, some of them without a readable name, and
    some of them imports that the image only refers to.  The lookup keeps one
    candidate before it asks for its name; the table keeps the last name that
    could be read.

    On both paths a placeholder gives way to every other name
    (`placeholdersLast`).  But in the lookup an unreadable name gives way to
    nothing (`readableNamesShow_iff`), and on both paths an import counts as a
    function at address 0 (`onlyDefined_iff`). -/

namespace ProfilerGetSymbols.Symbols

open ProgLib CompactSymbolTable

/-! ## The names listed at an address -/

variable {obj : ObjectFile} {starts ends : Option (List Nat)}

/-- Where a listed name comes from. -/
theorem mem_listedNames {s : Nat} {n : String} :
    some n ∈ listedNames obj starts s ↔
      (∃ symbol ∈ obj.symbols ++ obj.dynamicSymbols, symbol.kind = .text ∧
        relativeAddress obj symbol.address = s ∧ symbol.name = some n) ∨
      (∃ exp ∈ obj.exports.getD [], relativeAddress obj exp.address = s ∧
        fromUtf8 exp.name = some n) ∨
      (s ∈ starts.getD [] ∧ n = placeholderName s) := by
  rw [listedNames, List.mem_append, List.mem_append, or_assoc]
  refine or_congr ?_ (or_congr ?_ ?_)
  · simp only [List.mem_map, List.mem_filter, decide_eq_true_eq]
    constructor
    · rintro ⟨symbol, ⟨hmem, hkind, hs⟩, hn⟩
      exact ⟨symbol, hmem, hkind, hs, hn⟩
    · rintro ⟨symbol, hmem, hkind, hs, hn⟩
      exact ⟨symbol, ⟨hmem, hkind, hs⟩, hn⟩
  · simp only [List.mem_map, List.mem_filter, decide_eq_true_eq, and_assoc]
  · simp only [List.mem_map, List.mem_filter, decide_eq_true_eq, Option.some.injEq]
    constructor
    · rintro ⟨address, ⟨hmem, rfl⟩, rfl⟩
      exact ⟨hmem, rfl⟩
    · rintro ⟨hmem, rfl⟩
      exact ⟨s, ⟨hmem, rfl⟩, rfl⟩

/-- The full map has the readable ones of the same names. -/
theorem mem_mapNames {s : Nat} {n : String} :
    n ∈ mapNames obj starts s ↔ some n ∈ listedNames obj starts s := by
  rw [mem_listedNames, mapNames, List.mem_append, List.mem_append]
  simp only [List.mem_map, List.mem_filterMap, List.mem_filter, List.mem_append,
    decide_eq_true_eq, and_assoc]
  constructor
  · rintro ((⟨address, hmem, rfl, rfl⟩ | ⟨symbol, hmem, hkind, hs, hn⟩) | hexport)
    · exact Or.inr (Or.inr ⟨hmem, rfl⟩)
    · exact Or.inl ⟨symbol, hmem.symm, hkind, hs, hn⟩
    · exact Or.inr (Or.inl hexport)
  · rintro (⟨symbol, hmem, hkind, hs, hn⟩ | hexport | ⟨hmem, rfl⟩)
    · exact Or.inl (Or.inr ⟨symbol, hmem.symm, hkind, hs, hn⟩)
    · exact Or.inr hexport
    · exact Or.inl (Or.inl ⟨s, hmem, rfl, rfl⟩)

/-! ## Unreadable names -/

/-- **A READABLE NAME SHOWS**: a requested address whose nearest entry has a readable
    candidate is reported with the first such candidate's name. -/
def ReadableNamesShow (obj : ObjectFile) (starts ends : Option (List Nat))
    (addresses : List Nat) : Prop :=
  ∀ address ∈ addresses, ∀ s, NearestEntry obj starts ends address s →
    ∀ n, (listedNames obj starts s).reduceOption.head? = some n →
      Reports obj starts ends addresses address s n

/-- Where any candidate is readable, the first one is. -/
def FirstIsReadable (obj : ObjectFile) (starts ends : Option (List Nat))
    (addresses : List Nat) : Prop :=
  ∀ address ∈ addresses, ∀ s, NearestEntry obj starts ends address s →
    (∃ n, some n ∈ listedNames obj starts s) → (listedNames obj starts s).head? ≠ some none

/-- The first readable name of a list that begins with a readable one. -/
theorem reduceOption_head? {α : Type} {l : List (Option α)} (h : l.head? ≠ some none) :
    l.reduceOption.head? = l.head?.join := by
  cases l with
  | nil => rfl
  | cons a l =>
      cases a with
      | none => exact absurd rfl h
      | some a => rfl

/-- **WHEN NO UNREADABLE NAME HIDES A READABLE ONE**: exactly when the first candidate
    is readable wherever any is. -/
theorem readableNamesShow_iff (obj : ObjectFile) (starts ends : Option (List Nat))
    (addresses : List Nat) :
    ReadableNamesShow obj starts ends addresses ↔ FirstIsReadable obj starts ends addresses := by
  constructor
  · rintro h address haddress s hs ⟨n, hn⟩ hhead
    have hmem : n ∈ (listedNames obj starts s).reduceOption := List.reduceOption_mem_iff.mpr hn
    obtain ⟨m, hm⟩ := Option.ne_none_iff_exists'.mp
      (mt List.head?_eq_none_iff.mp (List.ne_nil_of_mem hmem))
    obtain ⟨-, -, hlisted⟩ := reports_iff_nearest.mp (h address haddress s hs m hm)
    rw [hhead] at hlisted
    cases hlisted
  · intro h address haddress s hs n hn
    have hmem : some n ∈ listedNames obj starts s :=
      List.reduceOption_mem_iff.mp (List.mem_of_head? hn)
    have hfirst := h address haddress s hs ⟨n, hmem⟩
    rw [reduceOption_head? hfirst, Option.join_eq_some_iff] at hn
    exact reports_iff_nearest.mpr ⟨haddress, hs, hn⟩

/-- Two symbols at one address, the first of them without a readable name. -/
def unreadableAlias : ObjectFile :=
  { ObjectFile.bare with
    symbols := [⟨none, 16, .text⟩, ⟨some "f", 16, .text⟩]
    sections := [⟨.text, 0, 32, none, none, none, fun _ _ => none⟩] }

/-- The function `f` is not found. -/
theorem not_readableNamesShow_unreadableAlias :
    ¬ ReadableNamesShow unreadableAlias none none [20] := by
  intro h
  have hnearest : NearestEntry unreadableAlias none none 20 16 := by
    refine around_bestEntries_iff.mpr ⟨.symbol ⟨none, 16, .text⟩, (32, .endAddress), [], ?_⟩
    exact ⟨by decide, by decide, [], by decide⟩
  obtain ⟨-, -, hlisted⟩ := reports_iff_nearest.mp (h 20 (by decide) 16 hnearest "f" (by decide))
  exact absurd hlisted (by decide)

/-! ## Placeholders -/

/-- The rows that the symbol table of an object is packed from. -/
def tableRows (obj : ObjectFile) (starts : Option (List Nat)) : List (Nat × String) :=
  keptEntries (objectToMap obj starts)

theorem mem_tableRows {s : Nat} {n : String} :
    (s, n) ∈ tableRows obj starts ↔ (mapNames obj starts s).getLast? = some n := by
  have hrows := listsMap_keptEntries obj starts
  rw [tableRows, ← hrows.names s, Option.map_eq_some_iff]
  constructor
  · intro h
    exact ⟨(s, n), find?_of_pairwise Prod.fst hrows.ascending h, rfl⟩
  · rintro ⟨row, hfind, rfl⟩
    have hfst : row.1 = s := by simpa using List.find?_some hfind
    rw [← hfst]
    exact List.mem_of_find?_eq_some hfind

/-- The table with these rows: their addresses, the positions of their names and the
    names in one buffer. -/
def packed (rows : List (Nat × String)) : CompactSymbolTable where
  addr := rows.map Prod.fst
  index := (List.range (rows.length + 1)).map (fun i => asU32 (offset (nameBytes rows) i))
  buffer := (nameBytes rows).flatten

/-- A reader of a table with less than 4 GiB of names finds its rows. -/
theorem contains_packed_iff (hfit : (nameBytes (tableRows obj starts)).flatten.length < 2 ^ 32)
    {s : Nat} {n : String} :
    Contains (packed (tableRows obj starts)) s n ↔ (s, n) ∈ tableRows obj starts := by
  have htable : packed (tableRows obj starts) = fromFullMap (objectToMap obj starts) :=
    (fromFullMap_eq _).symm
  rw [htable, contains_fromFullMap, mem_tableRows]
  exact (listsMap_keptEntries obj starts).readBack_iff hfit s n

/-- The readable names that the object itself gives an address. -/
def GivenName (obj : ObjectFile) (s : Nat) (n : String) : Prop :=
  (∃ symbol ∈ obj.symbols ++ obj.dynamicSymbols, symbol.kind = .text ∧
    relativeAddress obj symbol.address = s ∧ symbol.name = some n) ∨
  ∃ exp ∈ obj.exports.getD [], relativeAddress obj exp.address = s ∧ fromUtf8 exp.name = some n

/-- The object has a symbol, a dynamic symbol or an export at the address. -/
def HasSymbol (obj : ObjectFile) (s : Nat) : Prop :=
  (∃ symbol ∈ obj.symbols ++ obj.dynamicSymbols, symbol.kind = .text ∧
    relativeAddress obj symbol.address = s) ∨
  ∃ exp ∈ obj.exports.getD [], relativeAddress obj exp.address = s

/-- **PLACEHOLDERS COME LAST**, in the table and in the lookup. -/
structure PlaceholdersLast (obj : ObjectFile) (starts ends : Option (List Nat)) : Prop where
  /-- The table is packed from the rows, whose addresses ascend. -/
  rows : fromFullMap (objectToMap obj starts) = packed (tableRows obj starts) ∧
    (tableRows obj starts).Pairwise (fun a b => a.1 < b.1)
  /-- Where the object gives a readable name, the row has such a name. -/
  named : ∀ s n, (s, n) ∈ tableRows obj starts → (∃ m, GivenName obj s m) → GivenName obj s n
  /-- Elsewhere the row has the placeholder of a function start. -/
  placeholder : ∀ s n, (s, n) ∈ tableRows obj starts → (¬ ∃ m, GivenName obj s m) →
    s ∈ starts.getD [] ∧ n = placeholderName s
  everyStart : ∀ s ∈ starts.getD [], s ∈ (tableRows obj starts).map Prod.fst
  /-- A name that is reported is that of the best entry, and this entry is a
      placeholder only where the object has nothing. -/
  lookup : ∀ addresses address s n, Reports obj starts ends addresses address s n →
    ∃ entry, BestEntry obj starts ends s entry ∧ entry.name s = some n ∧
      (entry = .synthesized → s ∈ starts.getD [] ∧ ¬ HasSymbol obj s)

/-- The last of some names is among the last part of them that is not empty. -/
theorem mem_of_getLast?_append {α : Type} {l l' : List α} {a : α}
    (h : (l ++ l').getLast? = some a) (hne : l' ≠ []) : a ∈ l' := by
  rw [List.getLast?_append_of_ne_nil l hne] at h
  exact List.mem_of_getLast? h

/-- The names of the full map at an address: the placeholders, then the given names. -/
theorem mapNames_eq (obj : ObjectFile) (starts : Option (List Nat)) (s : Nat) :
    ∃ given : List String, (∀ n, n ∈ given ↔ GivenName obj s n) ∧
      mapNames obj starts s
        = ((starts.getD []).filter (fun address => address = s)).map placeholderName ++ given := by
  refine ⟨_, ?_, List.append_assoc ..⟩
  intro n
  simp only [List.mem_append, List.mem_filterMap, List.mem_filter, decide_eq_true_eq, and_assoc,
    GivenName]
  constructor
  · rintro (⟨symbol, hmem, hsymbol⟩ | hexport)
    · exact Or.inl ⟨symbol, hmem.symm, hsymbol⟩
    · exact Or.inr hexport
  · rintro (⟨symbol, hmem, hsymbol⟩ | hexport)
    · exact Or.inl ⟨symbol, hmem.symm, hsymbol⟩
    · exact Or.inr hexport

/-- A placeholder survives the deduplication only where the object has nothing. -/
theorem not_hasSymbol_of_synthesized {s : Nat} (h : BestEntry obj starts ends s .synthesized) :
    ¬ HasSymbol obj s := by
  rw [bestEntry_iff_find, fullSymbolList, List.append_assoc, List.append_assoc, List.append_assoc,
    List.find?_append, Option.or_eq_some_iff] at h
  rcases h with hsymbol | ⟨hnosymbol, h⟩
  · -- an entry of the symbols is not a placeholder
    obtain ⟨symbol, -, heq⟩ := List.mem_map.mp (List.mem_of_find?_eq_some hsymbol)
    cases heq
  · rw [List.find?_append, Option.or_eq_some_iff] at h
    rcases h with hexport | ⟨hnoexport, -⟩
    · obtain ⟨exp, -, heq⟩ := List.mem_map.mp (List.mem_of_find?_eq_some hexport)
      cases heq
    · rintro (⟨symbol, hmem, hkind, hs⟩ | ⟨exp, hmem, hs⟩)
      · refine List.find?_eq_none.mp hnosymbol (relativeAddress obj symbol.address, .symbol symbol) ?_
          (by simpa using hs)
        exact List.mem_map.mpr ⟨symbol, List.mem_filter.mpr ⟨hmem, decide_eq_true hkind⟩, rfl⟩
      · exact List.find?_eq_none.mp hnoexport (relativeAddress obj exp.address, .export exp)
          (List.mem_map.mpr ⟨exp, hmem, rfl⟩) (by simpa using hs)

/-- A placeholder belongs to a function start. -/
theorem mem_starts_of_synthesized {s : Nat} (h : BestEntry obj starts ends s .synthesized) :
    s ∈ starts.getD [] := by
  have hmem := List.mem_of_find?_eq_some (bestEntry_iff_find.mp h)
  simp only [fullSymbolList, List.mem_append, List.mem_map, List.mem_filterMap, Prod.mk.injEq,
    reduceCtorEq, and_false, exists_false, false_or, or_false, Option.map_eq_some_iff] at hmem
  obtain ⟨address, hstart, rfl, -⟩ := hmem
  exact hstart

/-- The name that is reported is the best entry's. -/
theorem exists_bestEntry_of_reports {addresses : List Nat} {address s : Nat} {n : String}
    (h : Reports obj starts ends addresses address s n) :
    ∃ entry, BestEntry obj starts ends s entry ∧ entry.name s = some n := by
  obtain ⟨-, hnearest, hlisted⟩ := reports_iff_nearest.mp h
  obtain ⟨entry, next, above, -, -, below, heq⟩ := around_bestEntries_iff.mp hnearest
  have hmem : (s, entry) ∈ bestEntries obj starts ends := by
    rw [heq]
    exact List.mem_append_right _ (List.mem_cons_self ..)
  exact ⟨entry, bestEntry_iff.mpr hmem, (name_bestEntries hmem n).mpr hlisted⟩

/-- Placeholders are the last resort on both paths, for any object and any list of
    function starts. -/
theorem placeholdersLast (obj : ObjectFile) (starts ends : Option (List Nat)) :
    PlaceholdersLast obj starts ends where
  rows := ⟨fromFullMap_eq _, (listsMap_keptEntries obj starts).ascending⟩
  named := by
    rintro s n hrow ⟨m, hm⟩
    obtain ⟨given, hgiven, heq⟩ := mapNames_eq obj starts s
    rw [mem_tableRows, heq] at hrow
    exact (hgiven n).mp (mem_of_getLast?_append hrow (List.ne_nil_of_mem ((hgiven m).mpr hm)))
  placeholder := by
    intro s n hrow hnone
    have hname := mem_mapNames.mp (List.mem_of_getLast? (mem_tableRows.mp hrow))
    rcases mem_listedNames.mp hname with hsymbol | hexport | hstart
    · exact absurd ⟨n, Or.inl hsymbol⟩ hnone
    · exact absurd ⟨n, Or.inr hexport⟩ hnone
    · exact hstart
  everyStart := by
    intro s hs
    have hmem : placeholderName s ∈ mapNames obj starts s :=
      mem_mapNames.mpr (mem_listedNames.mpr (Or.inr (Or.inr ⟨hs, rfl⟩)))
    obtain ⟨n, hn⟩ := Option.ne_none_iff_exists'.mp
      (mt List.getLast?_eq_none_iff.mp (List.ne_nil_of_mem hmem))
    exact List.mem_map.mpr ⟨(s, n), mem_tableRows.mpr hn, rfl⟩
  lookup := by
    intro addresses address s n h
    obtain ⟨entry, hbest, hname⟩ := exists_bestEntry_of_reports h
    refine ⟨entry, hbest, hname, ?_⟩
    rintro rfl
    exact ⟨mem_starts_of_synthesized hbest, not_hasSymbol_of_synthesized hbest⟩

/-! ## Imports -/

/-- Which symbols of an object are undefined: the two symbol tables with the flag of
    each symbol.  An undefined function symbol is listed like any other, at address 0. -/
structure Definedness (obj : ObjectFile) where
  symbols : List (ObjectSymbol × Bool)
  dynamicSymbols : List (ObjectSymbol × Bool)
  symbols_eq : symbols.map Prod.fst = obj.symbols
  dynamicSymbols_eq : dynamicSymbols.map Prod.fst = obj.dynamicSymbols
  undefined_listed : ∀ e ∈ symbols ++ dynamicSymbols, e.2 = true → e.1.kind = .text →
    e.1.address = 0

namespace Definedness

variable (d : Definedness obj)

/-- The image has a function of this name: a defined symbol, an export, or a function
    start whose placeholder is the name. -/
def DefinedHere (starts : Option (List Nat)) (n : String) : Prop :=
  (∃ e ∈ d.symbols ++ d.dynamicSymbols, e.2 = false ∧ e.1.name = some n) ∨
  (∃ exp ∈ obj.exports.getD [], fromUtf8 exp.name = some n) ∨
  ∃ s ∈ starts.getD [], n = placeholderName s

/-- The name of an undefined symbol without a definition in this image. -/
def ImportedOnly (starts : Option (List Nat)) (n : String) : Prop :=
  (∃ e ∈ d.symbols ++ d.dynamicSymbols, e.2 = true ∧ e.1.name = some n) ∧
    ¬ d.DefinedHere starts n

/-- **ONLY FUNCTIONS OF THE IMAGE** are reported, and are in the table. -/
structure OnlyDefined (starts ends : Option (List Nat)) (addresses : List Nat) : Prop where
  lookup : ∀ address s n, Reports obj starts ends addresses address s n →
    ¬ d.ImportedOnly starts n
  table : ∀ s n, (s, n) ∈ tableRows obj starts → ¬ d.ImportedOnly starts n

/-- At the relative address of address 0, an import is neither the first candidate, where a
    requested address comes to it, nor the last readable name of the full map. -/
structure NoImportFirst (starts ends : Option (List Nat)) (addresses : List Nat) : Prop where
  lookup : ∀ address ∈ addresses, NearestEntry obj starts ends address (relativeAddress obj 0) →
    ∀ n, (listedNames obj starts (relativeAddress obj 0)).head? = some (some n) →
      ¬ d.ImportedOnly starts n
  table : ∀ n, (mapNames obj starts (relativeAddress obj 0)).getLast? = some n →
    ¬ d.ImportedOnly starts n

variable {d}

/-- Every symbol of the object is one of the flagged ones. -/
theorem exists_flagged {symbol : ObjectSymbol} (h : symbol ∈ obj.symbols ++ obj.dynamicSymbols) :
    ∃ flag, (symbol, flag) ∈ d.symbols ++ d.dynamicSymbols := by
  rw [← d.symbols_eq, ← d.dynamicSymbols_eq, ← List.map_append] at h
  obtain ⟨⟨symbol', flag⟩, hmem, rfl⟩ := List.mem_map.mp h
  exact ⟨flag, hmem⟩

/-- **IMPORTS SIT AT ADDRESS 0**: a name listed at any other address is one of the image. -/
theorem definedHere_of_listed {s : Nat} {n : String} (h : some n ∈ listedNames obj starts s)
    (hs : s ≠ relativeAddress obj 0) : d.DefinedHere starts n := by
  rcases mem_listedNames.mp h with ⟨symbol, hmem, hkind, hsymbol, hn⟩ | ⟨exp, hexp, -, hn⟩ | ⟨hs, rfl⟩
  · obtain ⟨flag, hflag⟩ := exists_flagged (d := d) hmem
    cases flag with
    | false => exact Or.inl ⟨_, hflag, rfl, hn⟩
    | true =>
        have hzero := d.undefined_listed _ hflag rfl hkind
        rw [hzero] at hsymbol
        exact absurd hsymbol.symm hs
  · exact Or.inr (Or.inl ⟨exp, hexp, hn⟩)
  · exact Or.inr (Or.inr ⟨s, hs, rfl⟩)

/-- **WHEN ONLY FUNCTIONS OF THE IMAGE SHOW**: exactly when no import without a
    definition comes first at the relative address of address 0. -/
theorem onlyDefined_iff (d : Definedness obj) (starts ends : Option (List Nat))
    (addresses : List Nat) :
    d.OnlyDefined starts ends addresses ↔ d.NoImportFirst starts ends addresses := by
  constructor
  · intro h
    refine ⟨?_, ?_⟩
    · intro address haddress hnearest n hn
      exact h.lookup address _ n (reports_iff_nearest.mpr ⟨haddress, hnearest, hn⟩)
    · intro n hn
      exact h.table _ n (mem_tableRows.mpr hn)
  · intro h
    refine ⟨?_, ?_⟩
    · intro address s n hreports
      obtain ⟨haddress, hnearest, hn⟩ := reports_iff_nearest.mp hreports
      by_cases hs : s = relativeAddress obj 0
      · subst hs
        exact h.lookup address haddress hnearest n hn
      · exact fun himport => himport.2 (definedHere_of_listed (List.mem_of_head? hn) hs)
    · intro s n hrow
      rw [mem_tableRows] at hrow
      by_cases hs : s = relativeAddress obj 0
      · subst hs
        exact h.table n hrow
      · have hlisted := mem_mapNames.mp (List.mem_of_getLast? hrow)
        exact fun himport => himport.2 (definedHere_of_listed hlisted hs)

end Definedness

/-- A library that imports `malloc` and has a function `f` at `0x1000`. -/
def importingLibrary : ObjectFile :=
  { ObjectFile.bare with
    dynamicSymbols := [⟨some "malloc", 0, .text⟩, ⟨some "f", 0x1000, .text⟩]
    sections := [⟨.text, 0x1000, 0x1000, none, none, none, fun _ _ => none⟩] }

def importingLibraryDefinedness : Definedness importingLibrary where
  symbols := []
  dynamicSymbols := [(⟨some "malloc", 0, .text⟩, true), (⟨some "f", 0x1000, .text⟩, false)]
  symbols_eq := rfl
  dynamicSymbols_eq := rfl
  undefined_listed := by decide

/-- The headers of the library, below its text, are reported as `malloc`. -/
theorem not_onlyDefined_importingLibrary :
    ¬ importingLibraryDefinedness.OnlyDefined none none [0x40] := by
  intro h
  have hreports : Reports importingLibrary none none [0x40] 0x40 0 "malloc" :=
    reports_iff.mpr ⟨by simp, 0x1000, by decide⟩
  refine h.lookup 0x40 0 "malloc" hreports ⟨⟨_, List.mem_cons_self .., rfl, rfl⟩, ?_⟩
  rintro (⟨e, he, hdefined, hname⟩ | ⟨exp, hexp, -⟩ | ⟨s, hs, -⟩)
  · revert hdefined hname
    revert e
    decide
  · cases hexp
  · cases hs

end ProfilerGetSymbols.Symbols
