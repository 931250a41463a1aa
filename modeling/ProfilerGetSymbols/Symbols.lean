import ProfilerGetSymbols.Object
import ProfilerGetSymbols.CompactSymbolTable

/-! # Symbols of an object — the full map and the lookup by address

    An object names its functions up to four times over: in its symbol table,
    its dynamic symbol table, its exports, and by placeholders for function
    starts without a name.  `objectToMap` lists them all for a symbol table;
    `getSymbolicationResultForAddressesFromObject` looks single addresses up
    among them, with end addresses as separators.

    Both keep one name for an address.  The lookup keeps the first of the order
    symbols, dynamic symbols, exports, placeholders; the table keeps the last
    readable one of the order placeholders, dynamic symbols, symbols, exports.
    `sameNames_iff` says exactly when the two agree. -/

namespace ProfilerGetSymbols.Symbols

open ProgLib CompactSymbolTable

variable {ε : Type}

/-! ## The model -/

def relativeAddressBase (obj : ObjectFile) : Nat :=
  match obj.segments.find? (·.name = some "__TEXT") with
  | some textSegment => textSegment.address
  | none =>
  match obj.sectionByNameBytes (asBytes ".text") with
  | some textSection =>
      -- A kernel image: relative addresses are relative to the text section.
      if 0xffffffff80000000 ≤ textSection.address then textSection.address
      else obj.relativeAddressBase
  | none => obj.relativeAddressBase

/-- `(address - image_base) as u32`. -/
def relativeAddress (obj : ObjectFile) (address : Nat) : Nat :=
  asU32 (u64Sub address (relativeAddressBase obj))

/-- `format!("fun_{:x}", address)`. -/
def placeholderName (address : Nat) : String := "fun_" ++ lowerHex address

def objectToMap (obj : ObjectFile) (functionStartAddresses : Option (List Nat)) :
    List (Nat × String) :=
  let starts := (functionStartAddresses.getD []).map
    (fun address => (address, placeholderName address))
  let symbols := ((obj.dynamicSymbols ++ obj.symbols).filter (·.kind = .text)).filterMap
    (fun symbol => symbol.name.map (fun name => (relativeAddress obj symbol.address, name)))
  let exports := (obj.exports.getD []).filterMap
    (fun exp => (fromUtf8 exp.name).map (fun name => (relativeAddress obj exp.address, name)))
  starts ++ symbols ++ exports

inductive FullSymbolListEntry where
  | synthesized
  | symbol (symbol : ObjectSymbol)
  | export (exp : Export)
  | endAddress
  deriving DecidableEq, Repr

def FullSymbolListEntry.name (addr : Nat) : FullSymbolListEntry → Option String
  | .synthesized => some (placeholderName addr)
  | .symbol s => s.name
  | .export exp => fromUtf8 exp.name
  | .endAddress => none

/-- The end of a text section as a relative address, unless it overflows. -/
def sectionEndAddress (obj : ObjectFile) (s : ObjectSection) : Option Nat :=
  let vmaEndAddress := s.address + s.size
  if 2 ^ 64 ≤ vmaEndAddress ∨ vmaEndAddress < relativeAddressBase obj then none
  else
    let endAddress := vmaEndAddress - relativeAddressBase obj
    if endAddress < 2 ^ 32 then some endAddress else none

/-- The entries in the order "best to worst", before they are sorted. -/
def fullSymbolList (obj : ObjectFile)
    (functionStartAddresses functionEndAddresses : Option (List Nat)) :
    List (Nat × FullSymbolListEntry) :=
  ((obj.symbols ++ obj.dynamicSymbols).filter (·.kind = .text)).map
    (fun s => (relativeAddress obj s.address, .symbol s))
  ++ (obj.exports.getD []).map (fun exp => (relativeAddress obj exp.address, .export exp))
  ++ (functionStartAddresses.getD []).map (fun address => (address, .synthesized))
  ++ (obj.sections.filter (·.kind = .text)).filterMap
    (fun s => (sectionEndAddress obj s).map (fun address => (address, .endAddress)))
  ++ (functionEndAddresses.getD []).map (fun address => (address, .endAddress))

/-- `binary_search_by_key` on entries with strictly ascending addresses: the
    index of the address, or else where it would have to be inserted. -/
def binarySearchByKey (entries : List (Nat × FullSymbolListEntry)) (address : Nat) :
    Except Nat Nat :=
  let i := entries.findIdx (fun entry => address ≤ entry.1)
  match entries[i]? with
  | some entry => if entry.1 = address then .ok i else .error i
  | none => .error i

/-- The index of the entry for an address, if not all entries lie above it. -/
def entryIndex (entries : List (Nat × FullSymbolListEntry)) (address : Nat) : Option Nat :=
  match binarySearchByKey entries address with
  | .error 0 => none
  | .ok i => some i
  | .error i => some (i - 1)

/-- What to report for the entry at an index: symbol address, name and function size. -/
def symbolAt (entries : List (Nat × FullSymbolListEntry)) (index : Nat) :
    Call ε (Option (Nat × String × Nat)) := do
  let entry ← Outcome.unwrap .indexOutOfBounds entries[index]?
  match entry.2.name entry.1, entries[index + 1]? with
  | some name, some next => return some (entry.1, name, u32Sub next.1 entry.1)
  | _, _ => return none

/-- The body of the loop over the addresses, up to the report. -/
def lookUpAddress (entries : List (Nat × FullSymbolListEntry)) (address : Nat) :
    Call ε (Option (Nat × String × Nat)) :=
  match entryIndex entries address with
  | none => return none
  | some index => symbolAt entries index

/-- The loop over the addresses. -/
def lookUpAddresses {R : Type} [SymbolicationResult R]
    (entries : List (Nat × FullSymbolListEntry)) : R → List Nat → Call ε R
  | result, [] => return result
  | result, address :: addresses => do
      match ← lookUpAddress entries address with
      | some (symbolAddress, name, functionSize) => do
          let result ← SymbolicationResult.addAddressSymbol result address symbolAddress name
            (some functionSize)
          lookUpAddresses entries result addresses
      | none => lookUpAddresses entries result addresses

def getSymbolicationResultForAddressesFromObject (R : Type) [SymbolicationResult R]
    (addresses : List Nat) (obj : ObjectFile)
    (functionStartAddresses functionEndAddresses : Option (List Nat)) : Call ε R := do
  let entries := fullSymbolList obj functionStartAddresses functionEndAddresses
  let entries := sortByKey Prod.fst entries
  let entries := dedupByKey Prod.fst entries
  let symbolicationResult ← SymbolicationResult.forAddresses addresses
  let symbolicationResult ←
    SymbolicationResult.setTotalSymbolCount symbolicationResult (asU32 entries.length)
  lookUpAddresses entries symbolicationResult addresses

theorem settles_lookUpAddress {admitted : Panic → Prop} (hindex : admitted .indexOutOfBounds)
    (entries : List (Nat × FullSymbolListEntry)) (address : Nat) :
    (lookUpAddress entries address : Call ε _).Settles admitted := by
  rw [lookUpAddress]
  split
  · exact trivial
  · rw [symbolAt]
    refine (Outcome.settles_unwrap hindex _).bind (fun entry _ => ?_)
    split
    · exact trivial
    · exact trivial

/-- The loop over the addresses keeps the invariant of a result that is made for them. -/
theorem settles_lookUpAddresses {R : Type} [SymbolicationResult R] {admitted : Panic → Prop}
    {I : R → Prop} (hindex : admitted .indexOutOfBounds) {addresses : List Nat}
    (hsafe : SymbolicationResult.Safe R ε admitted addresses I)
    (entries : List (Nat × FullSymbolListEntry)) {l : List Nat} (hl : ∀ a ∈ l, a ∈ addresses)
    {r : R} (hr : I r) :
    (lookUpAddresses entries r l : Call ε R).Settles admitted ∧
      ∀ r', (lookUpAddresses entries r l : Call ε R) = .ok r' → I r' := by
  induction l generalizing r with
  | nil =>
      refine ⟨trivial, ?_⟩
      intro r' hr'
      exact Outcome.ok.inj hr' ▸ hr
  | cons address l ih =>
      have htail := fun a ha => hl a (List.mem_cons_of_mem _ ha)
      have hadd := hsafe.addAddressSymbol address (hl address (List.mem_cons_self ..)) r
      rw [lookUpAddresses]
      constructor
      · refine (settles_lookUpAddress hindex entries address).bind (fun found _ => ?_)
        split
        · refine (hadd _ _ _ hr).1.bind (fun r₁ hr₁ => ?_)
          exact (ih htail ((hadd _ _ _ hr).2 r₁ hr₁)).1
        · exact (ih htail hr).1
      · intro r' hr'
        obtain ⟨found, -, hr'⟩ := Outcome.bind_eq_ok.mp hr'
        split at hr'
        · obtain ⟨r₁, hr₁, hr'⟩ := Outcome.bind_eq_ok.mp hr'
          exact (ih htail ((hadd _ _ _ hr).2 r₁ hr₁)).2 r' hr'
        · exact (ih htail hr).2 r' hr'

/-- The lookup panics where a call of the result does, or at an index out of bounds. -/
theorem settles_getSymbolicationResultForAddressesFromObject {R : Type} [SymbolicationResult R]
    {admitted : Panic → Prop} {I : R → Prop} (hindex : admitted .indexOutOfBounds)
    {addresses : List Nat} (hsafe : SymbolicationResult.Safe R ε admitted addresses I)
    (obj : ObjectFile) (starts ends : Option (List Nat)) :
    (getSymbolicationResultForAddressesFromObject R addresses obj starts ends
      : Call ε R).Settles admitted ∧
    ∀ r, (getSymbolicationResultForAddressesFromObject R addresses obj starts ends
      : Call ε R) = .ok r → I r := by
  rw [getSymbolicationResultForAddressesFromObject]
  constructor
  · refine hsafe.forAddresses.1.bind (fun r₀ hr₀ => ?_)
    have hcount := hsafe.setTotalSymbolCount r₀
    refine (hcount _ (hsafe.forAddresses.2 r₀ hr₀)).1.bind (fun r₁ hr₁ => ?_)
    exact (settles_lookUpAddresses hindex hsafe _ (fun _ ha => ha)
      ((hcount _ (hsafe.forAddresses.2 r₀ hr₀)).2 r₁ hr₁)).1
  · intro r hr
    obtain ⟨r₀, hr₀, hr⟩ := Outcome.bind_eq_ok.mp hr
    obtain ⟨r₁, hr₁, hr⟩ := Outcome.bind_eq_ok.mp hr
    exact (settles_lookUpAddresses hindex hsafe _ (fun _ ha => ha)
      ((hsafe.setTotalSymbolCount r₀ _ (hsafe.forAddresses.2 r₀ hr₀)).2 r₁ hr₁)).2 r hr

/-! ## The lookup of one address -/

/-- The entries around an address: the nearest one at or below it, and what follows. -/
def Around (entries : List (Nat × FullSymbolListEntry)) (address : Nat)
    (entry : Nat × FullSymbolListEntry) (above : List (Nat × FullSymbolListEntry)) : Prop :=
  entry.1 ≤ address ∧ (∀ e ∈ above, address < e.1) ∧
    ∃ below, entries = below ++ entry :: above

theorem Around.mem {entries above : List (Nat × FullSymbolListEntry)} {address : Nat}
    {entry : Nat × FullSymbolListEntry} (h : Around entries address entry above) :
    entry ∈ entries := by
  obtain ⟨-, -, below, heq⟩ := h
  rw [heq]
  exact List.mem_append_right _ (List.mem_cons_self ..)

/-- What the lookup reports for the entries around an address. -/
def reportAround (entry : Nat × FullSymbolListEntry) (above : List (Nat × FullSymbolListEntry)) :
    Option (Nat × String × Nat) := do
  let name ← entry.2.name entry.1
  let next ← above.head?
  return (entry.1, name, u32Sub next.1 entry.1)

/-- What the lookup reports for an address. -/
def report (entries : List (Nat × FullSymbolListEntry)) (address : Nat) :
    Option (Nat × String × Nat) :=
  match (entryIndex entries address).map (entries.drop ·) with
  | some (entry :: above) => reportAround entry above
  | _ => none

/-- Strictly ascending entries split at an address. -/
theorem split_at {entries : List (Nat × FullSymbolListEntry)}
    (h : entries.Pairwise (fun a b => a.1 < b.1)) (address : Nat) :
    ∃ below above, entries = below ++ above ∧ (∀ e ∈ below, e.1 < address) ∧
      (∀ e ∈ above, address ≤ e.1) ∧
      entries.findIdx (fun entry => address ≤ entry.1) = below.length := by
  induction entries with
  | nil => exact ⟨[], [], rfl, by simp, by simp, rfl⟩
  | cons e entries ih =>
      obtain ⟨he, hentries⟩ := List.pairwise_cons.mp h
      by_cases hle : address ≤ e.1
      · refine ⟨[], e :: entries, rfl, by simp, ?_, by simp [List.findIdx_cons, hle]⟩
        intro e' he'
        rcases List.mem_cons.mp he' with rfl | hmem
        · exact hle
        · exact hle.trans (he e' hmem).le
      · obtain ⟨below, above, heq, hbelow, habove, hidx⟩ := ih hentries
        refine ⟨e :: below, above, by rw [heq]; rfl, ?_, habove, ?_⟩
        · intro e' he'
          rcases List.mem_cons.mp he' with rfl | hmem
          · omega
          · exact hbelow e' hmem
        · simp [List.findIdx_cons, hle, hidx]

/-- The entry at an index, with what follows it. -/
theorem symbolAt_eq {entries below above : List (Nat × FullSymbolListEntry)}
    {entry : Nat × FullSymbolListEntry} (h : entries = below ++ entry :: above) :
    (symbolAt entries below.length : Call ε _) = .ok (reportAround entry above) := by
  have h1 : entries[below.length]? = some entry := by simp [h]
  have h2 : entries[below.length + 1]? = above.head? := by
    rw [h, List.getElem?_append_right (by omega), List.head?_eq_getElem?]
    simp
  unfold symbolAt reportAround
  rw [h1, h2]
  cases hname : entry.2.name entry.1 with
  | none => simp [Outcome.unwrap, hname]
  | some name =>
      cases above with
      | nil => simp [Outcome.unwrap]
      | cons next above => simp [Outcome.unwrap, hname]

/-- The entry for an address, found by binary search. -/
theorem entryIndex_cases {entries : List (Nat × FullSymbolListEntry)}
    (h : entries.Pairwise (fun a b => a.1 < b.1)) (address : Nat) :
    ((∀ e ∈ entries, address < e.1) ∧ entryIndex entries address = none) ∨
    (∃ below entry above, entries = below ++ entry :: above ∧ entry.1 ≤ address ∧
      (∀ e ∈ above, address < e.1) ∧ entryIndex entries address = some below.length) := by
  obtain ⟨below, above, heq, hbelow, habove, hidx⟩ := split_at h address
  have hget : entries[below.length]? = above.head? := by
    rw [heq, List.getElem?_append_right (Nat.le_refl _), Nat.sub_self, List.head?_eq_getElem?]
  have hpw : above.Pairwise (fun a b => a.1 < b.1) := by
    rw [heq] at h
    exact (List.pairwise_append.mp h).2.1
  by_cases hhit : ∃ e above', above = e :: above' ∧ e.1 = address
  · -- An entry at the address itself.
    obtain ⟨e, above', rfl, rfl⟩ := hhit
    refine Or.inr ⟨below, e, above', heq, le_refl _, (List.pairwise_cons.mp hpw).1, ?_⟩
    unfold entryIndex binarySearchByKey
    simp only [hidx, hget, List.head?_cons, if_true]
  · -- None: the entry before the place where it would be inserted.
    have hsearch : binarySearchByKey entries address = .error below.length := by
      unfold binarySearchByKey
      simp only [hidx, hget]
      cases above with
      | nil => rfl
      | cons e above' => exact if_neg (fun hea => hhit ⟨e, above', rfl, hea⟩)
    have hlt : ∀ e ∈ above, address < e.1 := by
      intro e he
      refine lt_of_le_of_ne (habove e he) (fun hea => ?_)
      cases above with
      | nil => cases he
      | cons e' above' =>
          rcases List.mem_cons.mp he with rfl | hmem
          · exact hhit ⟨e, above', rfl, hea.symm⟩
          · have h1 := habove e' (by simp)
            have h2 := (List.pairwise_cons.mp hpw).1 e hmem
            omega
    rcases List.eq_nil_or_concat below with rfl | ⟨pre, last, rfl⟩
    · refine Or.inl ⟨?_, ?_⟩
      · rw [heq]
        exact hlt
      · rw [entryIndex, hsearch]
        rfl
    · refine Or.inr ⟨pre, last, above, by simp [heq], (hbelow last (by simp)).le, hlt, ?_⟩
      rw [entryIndex, hsearch, List.length_concat]
      rfl

/-- The lookup of one address does not panic. -/
theorem lookUpAddress_eq {entries : List (Nat × FullSymbolListEntry)}
    (h : entries.Pairwise (fun a b => a.1 < b.1)) (address : Nat) :
    (lookUpAddress entries address : Call ε _) = .ok (report entries address) := by
  rcases entryIndex_cases h address with ⟨-, hidx⟩ | ⟨below, entry, above, heq, -, -, hidx⟩
  · rw [lookUpAddress, report, hidx]
    rfl
  · rw [lookUpAddress, report, hidx, Option.map_some, heq, List.drop_left]
    exact symbolAt_eq rfl

/-- Entries split at an address in one way only. -/
theorem Around.unique {entries : List (Nat × FullSymbolListEntry)}
    (h : entries.Pairwise (fun a b => a.1 < b.1)) {address : Nat}
    {entry entry' : Nat × FullSymbolListEntry} {above above' : List (Nat × FullSymbolListEntry)}
    (ha : Around entries address entry above) (ha' : Around entries address entry' above') :
    entry = entry' ∧ above = above' := by
  have hcut : ∀ e c, Around entries address e c →
      entries.filter (fun x => address < x.1) = c ∧
        ∃ b, entries.filter (fun x => x.1 ≤ address) = b ++ [e] := by
    rintro e c ⟨he, hc, b, heq⟩
    have hb : ∀ x ∈ b, x.1 ≤ address := by
      intro x hx
      rw [heq] at h
      exact ((List.pairwise_append.mp h).2.2 x hx e (by simp)).le.trans he
    rw [heq]
    refine ⟨?_, b, ?_⟩
    · rw [List.filter_append, List.filter_cons_of_neg (by simpa using he),
        List.filter_eq_nil_iff.mpr (fun x hx => by simpa using hb x hx), List.nil_append,
        List.filter_eq_self.mpr (fun x hx => by simpa using hc x hx)]
    · rw [List.filter_append, List.filter_cons_of_pos (by simpa using he),
        List.filter_eq_self.mpr (fun x hx => by simpa using hb x hx),
        List.filter_eq_nil_iff.mpr (fun x hx => by simpa using hc x hx)]
  obtain ⟨h1, b, h2⟩ := hcut entry above ha
  obtain ⟨h1', b', h2'⟩ := hcut entry' above' ha'
  have hentry : [entry] = [entry'] := List.append_inj_right' (h2.symm.trans h2') rfl
  exact ⟨(List.cons.inj hentry).1, h1.symm.trans h1'⟩

/-- **THE LOOKUP OF ONE ADDRESS** reports what the entries around it say. -/
theorem report_eq_some {entries : List (Nat × FullSymbolListEntry)}
    (h : entries.Pairwise (fun a b => a.1 < b.1)) {address : Nat} {r : Nat × String × Nat} :
    report entries address = some r ↔
      ∃ entry above, Around entries address entry above ∧ reportAround entry above = some r := by
  rcases entryIndex_cases h address with ⟨hall, hidx⟩ | ⟨below, entry, above, heq, hle, hlt, hidx⟩
  · rw [report, hidx]
    constructor
    · exact fun hr => by cases hr
    · rintro ⟨entry, above, ⟨hle, -, below, heq⟩, -⟩
      have hlt := hall entry (by simp [heq])
      omega
  · have hreport : report entries address = reportAround entry above := by
      rw [report, hidx, Option.map_some, heq, List.drop_left]
    rw [hreport]
    constructor
    · exact fun hr => ⟨entry, above, ⟨hle, hlt, below, heq⟩, hr⟩
    · rintro ⟨entry', above', haround, hr⟩
      obtain ⟨rfl, rfl⟩ := haround.unique h ⟨hle, hlt, below, heq⟩
      exact hr

/-- The entries as the lookup sees them: one for each address, the best. -/
def bestEntries (obj : ObjectFile) (starts ends : Option (List Nat)) :
    List (Nat × FullSymbolListEntry) :=
  firstByKey Prod.fst (fullSymbolList obj starts ends)

theorem bestEntries_pairwise (obj : ObjectFile) (starts ends : Option (List Nat)) :
    (bestEntries obj starts ends).Pairwise (fun a b => a.1 < b.1) :=
  firstByKey_pairwise Prod.fst _

/-- The call that reports an address. -/
def reportCall (address : Nat) (r : Nat × String × Nat) : ResultCall :=
  .addAddressSymbol address r.1 r.2.1 (some r.2.2)

/-- What the loop records. -/
theorem lookUpAddresses_recorder {entries : List (Nat × FullSymbolListEntry)}
    (h : entries.Pairwise (fun a b => a.1 < b.1)) (result : Recorder) (addresses : List Nat) :
    (lookUpAddresses entries result addresses : Call ε Recorder)
      = .ok ⟨result.calls ++ addresses.filterMap
          (fun a => (report entries a).map (reportCall a))⟩ := by
  induction addresses generalizing result with
  | nil => simp [lookUpAddresses]
  | cons a addresses ih =>
      rw [lookUpAddresses, lookUpAddress_eq h, Outcome.ok_bind]
      cases hr : report entries a with
      | none =>
          rw [List.filterMap_cons_none (by rw [hr]; rfl)]
          exact ih result
      | some r =>
          rw [List.filterMap_cons_some (by rw [hr]; rfl)]
          show (lookUpAddresses entries (result.record (reportCall a r)) addresses
            : Call ε Recorder) = _
          rw [ih]
          simp [Recorder.record]

/-- The lookup reports `address` with a symbol address and a name. -/
def Reports (obj : ObjectFile) (starts ends : Option (List Nat)) (addresses : List Nat)
    (address symbolAddress : Nat) (symbolName : String) : Prop :=
  ∃ (r : Recorder) (functionSize : Option Nat),
    (getSymbolicationResultForAddressesFromObject Recorder addresses obj starts ends
      : Call Empty Recorder) = .ok r ∧
    ResultCall.addAddressSymbol address symbolAddress symbolName functionSize ∈ r.calls

theorem reports_iff {obj : ObjectFile} {starts ends : Option (List Nat)} {addresses : List Nat}
    {address symbolAddress : Nat} {symbolName : String} :
    Reports obj starts ends addresses address symbolAddress symbolName ↔
      address ∈ addresses ∧ ∃ size,
        report (bestEntries obj starts ends) address = some (symbolAddress, symbolName, size) := by
  have hrun : (getSymbolicationResultForAddressesFromObject Recorder addresses obj starts ends
      : Call Empty Recorder)
      = lookUpAddresses (bestEntries obj starts ends)
          ⟨[.forAddresses addresses,
            .setTotalSymbolCount (asU32 (bestEntries obj starts ends).length)]⟩ addresses := rfl
  unfold Reports
  rw [hrun, lookUpAddresses_recorder (bestEntries_pairwise obj starts ends)]
  constructor
  · rintro ⟨r, functionSize, hr, hmem⟩
    obtain rfl : _ = r := Outcome.ok.inj hr
    simp only [List.mem_append, List.mem_cons, List.not_mem_nil, reduceCtorEq, or_self, false_or,
      List.mem_filterMap, Option.map_eq_some_iff, reportCall,
      ResultCall.addAddressSymbol.injEq] at hmem
    obtain ⟨a, ha, ⟨s, n, size⟩, hreport, rfl, rfl, rfl, -⟩ := hmem
    exact ⟨ha, size, hreport⟩
  · rintro ⟨ha, size, hreport⟩
    refine ⟨_, some size, rfl, ?_⟩
    refine List.mem_append_right _ (List.mem_filterMap.mpr ⟨address, ha, ?_⟩)
    rw [hreport]
    rfl

/-! ## The names at an address -/

/-- `address` is one that the lookup separates functions at. -/
def IsEntryAddress (obj : ObjectFile) (starts ends : Option (List Nat)) (address : Nat) : Prop :=
  (∃ symbol ∈ obj.symbols ++ obj.dynamicSymbols, symbol.kind = .text ∧
    relativeAddress obj symbol.address = address) ∨
  (∃ exp ∈ obj.exports.getD [], relativeAddress obj exp.address = address) ∨
  address ∈ starts.getD [] ∨
  (∃ s ∈ obj.sections, s.kind = .text ∧ sectionEndAddress obj s = some address) ∨
  address ∈ ends.getD []

/-- `s` is the nearest such address at or below `address`, and not the last one. -/
structure NearestEntry (obj : ObjectFile) (starts ends : Option (List Nat)) (address s : Nat) :
    Prop where
  isEntry : IsEntryAddress obj starts ends s
  le : s ≤ address
  nearest : ∀ t, IsEntryAddress obj starts ends t → t ≤ address → t ≤ s
  notLast : ∃ t, IsEntryAddress obj starts ends t ∧ address < t

/-- The names listed at an address from best to worst, `none` where unreadable. -/
def listedNames (obj : ObjectFile) (starts : Option (List Nat)) (s : Nat) :
    List (Option String) :=
  ((obj.symbols ++ obj.dynamicSymbols).filter
    (fun symbol => symbol.kind = .text ∧ relativeAddress obj symbol.address = s)).map (·.name)
  ++ ((obj.exports.getD []).filter (fun exp => relativeAddress obj exp.address = s)).map
    (fun exp => fromUtf8 exp.name)
  ++ ((starts.getD []).filter (fun address => address = s)).map
    (fun address => some (placeholderName address))

/-- The readable names at an address in the order of the full map. -/
def mapNames (obj : ObjectFile) (starts : Option (List Nat)) (s : Nat) : List String :=
  ((starts.getD []).filter (fun address => address = s)).map placeholderName
  ++ ((obj.dynamicSymbols ++ obj.symbols).filter
    (fun symbol => symbol.kind = .text ∧ relativeAddress obj symbol.address = s)).filterMap (·.name)
  ++ ((obj.exports.getD []).filter (fun exp => relativeAddress obj exp.address = s)).filterMap
    (fun exp => fromUtf8 exp.name)

theorem isEntryAddress_iff {obj : ObjectFile} {starts ends : Option (List Nat)} {address : Nat} :
    IsEntryAddress obj starts ends address ↔
      address ∈ (fullSymbolList obj starts ends).map Prod.fst := by
  unfold IsEntryAddress fullSymbolList
  simp only [List.map_append, List.mem_append, List.map_map, List.mem_map, List.mem_filter,
    Function.comp_apply, List.map_filterMap, List.mem_filterMap, decide_eq_true_eq,
    Option.map_eq_some_iff, exists_exists_and_eq_and, or_assoc, and_assoc, exists_eq_right]

/-- The names of the entries at an address, end addresses included. -/
theorem names_fullSymbolList (obj : ObjectFile) (starts ends : Option (List Nat)) (s : Nat) :
    ∃ n, ((fullSymbolList obj starts ends).filter (fun entry => entry.1 = s)).map
        (fun entry => entry.2.name entry.1)
      = listedNames obj starts s ++ List.replicate n none := by
  have hpiece : ∀ {α : Type} (l : List α) (key : α → Nat) (entry : α → FullSymbolListEntry)
      (name : α → Option String), (∀ x, (entry x).name (key x) = name x) →
      ((l.map (fun x => (key x, entry x))).filter (fun e => e.1 = s)).map (fun e => e.2.name e.1)
        = (l.filter (fun x => key x = s)).map name := by
    intro α l key entry name hname
    rw [List.filter_map, List.map_map]
    exact List.map_congr_left (fun x _ => hname x)
  -- the entries for section ends and function ends come last and have no names
  have hends : ∀ l : List (Nat × FullSymbolListEntry), (∀ e ∈ l, e.2 = .endAddress) →
      ∃ n, (l.filter (fun e => e.1 = s)).map (fun e => e.2.name e.1) = List.replicate n none := by
    intro l hl
    refine ⟨_, List.eq_replicate_iff.mpr ⟨rfl, ?_⟩⟩
    intro name hname
    obtain ⟨e, he, rfl⟩ := List.mem_map.mp hname
    rw [hl e (List.mem_filter.mp he).1]
    rfl
  have hlast : ∀ e ∈ (obj.sections.filter (·.kind = .text)).filterMap
        (fun s => (sectionEndAddress obj s).map
          (fun address => (address, FullSymbolListEntry.endAddress)))
      ++ (ends.getD []).map (fun address => (address, FullSymbolListEntry.endAddress)),
      e.2 = .endAddress := by
    intro e he
    rcases List.mem_append.mp he with he | he
    · obtain ⟨x, -, hx⟩ := List.mem_filterMap.mp he
      obtain ⟨address, -, rfl⟩ := Option.map_eq_some_iff.mp hx
      rfl
    · obtain ⟨address, -, rfl⟩ := List.mem_map.mp he
      rfl
  obtain ⟨n, hn⟩ := hends _ hlast
  refine ⟨n, ?_⟩
  unfold fullSymbolList listedNames
  rw [List.append_assoc, List.filter_append, List.filter_append, List.filter_append,
    List.map_append, List.map_append, List.map_append, hn,
    hpiece _ _ _ (·.name) (fun _ => rfl), hpiece _ _ _ (fun exp => fromUtf8 exp.name) (fun _ => rfl),
    hpiece _ (fun address => address) _ (fun address => some (placeholderName address))
      (fun _ => rfl), List.filter_filter]
  simp only [Bool.decide_and, Bool.and_comm]

/-- The entry that survives at an address bears the name listed first there. -/
theorem name_bestEntries {obj : ObjectFile} {starts ends : Option (List Nat)} {s : Nat}
    {e : FullSymbolListEntry} (h : (s, e) ∈ bestEntries obj starts ends) (n : String) :
    e.name s = some n ↔ (listedNames obj starts s).head? = some (some n) := by
  obtain ⟨k, hnames⟩ := names_fullSymbolList obj starts ends s
  have hfirst : ((fullSymbolList obj starts ends).filter (fun entry => entry.1 = s)).head?
      = some (s, e) := by
    rw [List.head?_filter]
    exact (mem_firstByKey Prod.fst).mp h
  have hhead : (listedNames obj starts s ++ List.replicate k none).head? = some (e.name s) := by
    rw [← hnames, List.head?_map, hfirst]
    rfl
  cases hl : listedNames obj starts s with
  | nil =>
      rw [hl, List.nil_append] at hhead
      have hmem := List.mem_of_head? hhead
      rw [List.eq_of_mem_replicate hmem]
      simp
  | cons name names =>
      rw [hl, List.cons_append, List.head?_cons, Option.some.injEq] at hhead
      rw [List.head?_cons, Option.some.injEq, hhead]

/-- The name given last for an address in the full map. -/
theorem lastName_objectToMap (obj : ObjectFile) (starts : Option (List Nat)) (s : Nat) :
    lastName (objectToMap obj starts) s = (mapNames obj starts s).getLast? := by
  -- each table adds its readable names, in its own order
  have hpiece : ∀ {α : Type} (l : List α) (key : α → Nat) (name : α → Option String),
      ((l.filterMap (fun x => (name x).map (fun n => (key x, n)))).filter (fun e => e.1 = s)).map
        Prod.snd = (l.filter (fun x => key x = s)).filterMap name := by
    intro α l key name
    induction l with
    | nil => rfl
    | cons x l ih =>
        by_cases hx : key x = s
        · rw [List.filter_cons_of_pos (by simpa using hx)]
          cases hn : name x with
          | none => rw [List.filterMap_cons_none (by rw [hn]; rfl), ih, List.filterMap_cons_none hn]
          | some n =>
              rw [List.filterMap_cons_some (by rw [hn]; rfl), List.filterMap_cons_some hn,
                List.filter_cons_of_pos (by simpa using hx), List.map_cons, ih]
        · rw [List.filter_cons_of_neg (by simpa using hx)]
          cases hn : name x with
          | none => rw [List.filterMap_cons_none (by rw [hn]; rfl), ih]
          | some n =>
              rw [List.filterMap_cons_some (by rw [hn]; rfl),
                List.filter_cons_of_neg (by simpa using hx), ih]
  have hstarts : (((starts.getD []).map (fun address => (address, placeholderName address))).filter
      (fun e => e.1 = s)).map Prod.snd
      = ((starts.getD []).filter (fun address => address = s)).map placeholderName := by
    rw [List.filter_map, List.map_map]
    rfl
  have hmap : ((objectToMap obj starts).filter (fun e => e.1 = s)).map Prod.snd
      = mapNames obj starts s := by
    unfold objectToMap mapNames
    simp only [List.filter_append, List.map_append, hstarts, hpiece, List.filter_filter,
      Bool.decide_and, Bool.and_comm]
  rw [lastName, ← List.head?_filter, List.filter_reverse, List.head?_reverse, ← hmap,
    List.getLast?_map]

/-! ## When the two name the same function -/

/-- What the lookup reports, the table contains: the symbol address with the name. -/
def SameNames (obj : ObjectFile) (starts ends : Option (List Nat)) (addresses : List Nat) : Prop :=
  ∀ address symbolAddress symbolName,
    Reports obj starts ends addresses address symbolAddress symbolName →
    Contains (fromFullMap (objectToMap obj starts)) symbolAddress symbolName

/-- `rows` lists, in the order of the addresses, the last readable name of each. -/
structure ListsMap (obj : ObjectFile) (starts : Option (List Nat)) (rows : List (Nat × String)) :
    Prop where
  ascending : rows.Pairwise (fun a b => a.1 < b.1)
  names : ∀ s, (rows.find? (fun row => row.1 = s)).map Prod.snd = (mapNames obj starts s).getLast?

/-- The name listed first at the entry of a requested address, if readable, is
    the one that the positions of the last readable names lead a reader to. -/
def NoNameOverridden (obj : ObjectFile) (starts ends : Option (List Nat))
    (addresses : List Nat) : Prop :=
  ∀ address ∈ addresses, ∀ s, NearestEntry obj starts ends address s →
    ∀ n, (listedNames obj starts s).head? = some (some n) →
    ∃ rows, ListsMap obj starts rows ∧ readBack rows s = some (asBytes n)

theorem listsMap_keptEntries (obj : ObjectFile) (starts : Option (List Nat)) :
    ListsMap obj starts (keptEntries (objectToMap obj starts)) where
  ascending := firstByKey_pairwise Prod.fst _
  names s := by rw [find?_keptEntries, lastName_objectToMap]

/-- There is only one such list. -/
theorem ListsMap.unique {obj : ObjectFile} {starts : Option (List Nat)}
    {rows rows' : List (Nat × String)} (h : ListsMap obj starts rows)
    (h' : ListsMap obj starts rows') : rows = rows' := by
  have hmem : ∀ {l : List (Nat × String)}, ListsMap obj starts l → ∀ row,
      row ∈ l ↔ (mapNames obj starts row.1).getLast? = some row.2 := by
    intro l hl row
    rw [← hl.names row.1]
    constructor
    · intro hrow
      rw [find?_of_pairwise Prod.fst hl.ascending hrow]
      rfl
    · intro hfind
      obtain ⟨row', hrow', hsnd⟩ := Option.map_eq_some_iff.mp hfind
      have hfst : row'.1 = row.1 := by simpa using List.find?_some hrow'
      rw [← show row' = row from Prod.ext hfst hsnd]
      exact List.mem_of_find?_eq_some hrow'
  exact eq_of_pairwise_of_mem_iff Prod.fst h.ascending h'.ascending
    (fun row => (hmem h row).trans (hmem h' row).symm)

/-- Below 4 GiB of names a reader is led to the last readable name itself. -/
theorem ListsMap.readBack_iff {obj : ObjectFile} {starts : Option (List Nat)}
    {rows : List (Nat × String)} (h : ListsMap obj starts rows)
    (hfit : (nameBytes rows).flatten.length < 2 ^ 32) (s : Nat) (n : String) :
    readBack rows s = some (asBytes n) ↔ (mapNames obj starts s).getLast? = some n := by
  rw [readBack_of_lt hfit, ← h.names, Option.map_eq_some_iff, Option.map_eq_some_iff]
  simp only [asBytes_inj]

/-- What is around an address, said of the object. -/
theorem around_bestEntries_iff {obj : ObjectFile} {starts ends : Option (List Nat)}
    {address s : Nat} :
    NearestEntry obj starts ends address s ↔
      ∃ e next above, Around (bestEntries obj starts ends) address (s, e) (next :: above) := by
  have hmem : ∀ t, IsEntryAddress obj starts ends t ↔
      t ∈ (bestEntries obj starts ends).map Prod.fst := by
    intro t
    rw [isEntryAddress_iff, bestEntries, mem_map_firstByKey]
  have hpw := bestEntries_pairwise obj starts ends
  constructor
  · intro h
    obtain ⟨⟨s', e⟩, hmem_e, rfl⟩ := List.mem_map.mp ((hmem s).mp h.isEntry)
    obtain ⟨t, ht, hlt⟩ := h.notLast
    rcases entryIndex_cases hpw address with ⟨hall, -⟩ | ⟨below, entry, above, heq, hle, habove, -⟩
    · exact absurd h.le (by have := hall _ hmem_e; simpa using this)
    · have hentry : entry.1 = s' := by
        refine le_antisymm (h.nearest entry.1 ((hmem _).mpr ?_) hle) ?_
        · rw [heq]
          simp
        · rw [heq] at hmem_e hpw
          rcases List.mem_append.mp hmem_e with hb | hb
          · exact ((List.pairwise_append.mp hpw).2.2 _ hb entry (by simp)).le
          · rcases List.mem_cons.mp hb with rfl | hb
            · exact le_refl _
            · exact absurd h.le (by have := habove _ hb; simpa using this)
      cases above with
      | nil =>
          -- Nothing above: then no entry lies above the address.
          obtain ⟨x, hx, rfl⟩ := List.mem_map.mp ((hmem t).mp ht)
          rw [heq] at hx hpw
          rcases List.mem_append.mp hx with hb | hb
          · have := (List.pairwise_append.mp hpw).2.2 _ hb entry (by simp)
            omega
          · obtain rfl : x = entry := by simpa using hb
            omega
      | cons next above =>
          refine ⟨entry.2, next, above, ?_⟩
          rw [← hentry]
          exact ⟨hle, habove, below, heq⟩
  · rintro ⟨e, next, above, hle, habove, below, heq⟩
    refine ⟨(hmem s).mpr (by rw [heq]; simp), hle, ?_, next.1, (hmem _).mpr (by rw [heq]; simp),
      habove next (by simp)⟩
    intro t ht hta
    obtain ⟨x, hx, rfl⟩ := List.mem_map.mp ((hmem t).mp ht)
    rw [heq] at hx hpw
    rcases List.mem_append.mp hx with hb | hb
    · exact ((List.pairwise_append.mp hpw).2.2 _ hb (s, e) (by simp)).le
    · rcases List.mem_cons.mp hb with rfl | hb
      · exact le_refl _
      · have := habove x hb
        omega

/-- What the lookup reports, said of the object. -/
theorem reports_iff_nearest {obj : ObjectFile} {starts ends : Option (List Nat)}
    {addresses : List Nat} {address s : Nat} {n : String} :
    Reports obj starts ends addresses address s n ↔
      address ∈ addresses ∧ NearestEntry obj starts ends address s ∧
        (listedNames obj starts s).head? = some (some n) := by
  rw [reports_iff, around_bestEntries_iff]
  refine and_congr_right (fun _ => ?_)
  constructor
  · rintro ⟨size, hreport⟩
    obtain ⟨⟨s', e⟩, above, haround, hr⟩ :=
      (report_eq_some (bestEntries_pairwise obj starts ends)).mp hreport
    unfold reportAround at hr
    simp only [Option.bind_eq_bind, Option.bind_eq_some_iff, Option.pure_def, Option.some.injEq,
      Prod.mk.injEq] at hr
    obtain ⟨name, hname, next, hnext, rfl, rfl, -⟩ := hr
    cases above with
    | nil => cases hnext
    | cons next' above =>
        exact ⟨⟨e, next', above, haround⟩, (name_bestEntries haround.mem name).mp hname⟩
  · rintro ⟨⟨e, next, above, haround⟩, hlisted⟩
    refine ⟨u32Sub next.1 s, (report_eq_some (bestEntries_pairwise obj starts ends)).mpr
      ⟨_, _, haround, ?_⟩⟩
    unfold reportAround
    rw [(name_bestEntries haround.mem n).mpr hlisted]
    rfl

/-- **WHEN THE TABLE AND THE LOOKUP NAME THE SAME FUNCTION**: exactly when no
    name that the lookup prefers is overridden in the table. -/
theorem sameNames_iff (obj : ObjectFile) (starts ends : Option (List Nat)) (addresses : List Nat) :
    SameNames obj starts ends addresses ↔ NoNameOverridden obj starts ends addresses := by
  constructor
  · intro h address haddress s hs n hn
    have hcontains := h address s n (reports_iff_nearest.mpr ⟨haddress, hs, hn⟩)
    exact ⟨_, listsMap_keptEntries obj starts, contains_fromFullMap.mp hcontains⟩
  · intro h address s n hreports
    obtain ⟨haddress, hs, hn⟩ := reports_iff_nearest.mp hreports
    obtain ⟨rows, hrows, hread⟩ := h address haddress s hs n hn
    rw [hrows.unique (listsMap_keptEntries obj starts)] at hread
    exact contains_fromFullMap.mpr hread

/-- Two symbols at one address, and the end of their section. -/
def twoAliases : ObjectFile :=
  { ObjectFile.bare with
    symbols := [⟨some "a", 16, .text⟩, ⟨some "b", 16, .text⟩]
    sections := [⟨.text, 0, 32, none, none, none, fun _ _ => none⟩] }

/-- The lookup says `a` and the table says `b`. -/
theorem not_sameNames_twoAliases : ¬ SameNames twoAliases none none [20] := by
  intro h
  have hreports : Reports twoAliases none none [20] 20 16 "a" :=
    reports_iff.mpr ⟨by simp, 16, by decide⟩
  have hcontains := contains_fromFullMap.mp (h 20 16 "a" hreports)
  exact absurd hcontains (by decide)

end ProfilerGetSymbols.Symbols
