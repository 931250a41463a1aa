import ProfilerGetSymbols.Elf
import ProfilerGetSymbols.LookedUpAddresses
import ProfilerGetSymbols.ProgLib.Columns

/-! # Debug IDs — which files they tell apart

    A debug ID has 16 bytes of a build ID, or, where there is none, a hash of the
    first page of code: the page is written in rows of 16, and each byte of the
    hash is the XOR of a column.

    Two build IDs are told apart by their first 16 bytes, and two pages by their
    columns; a single byte of the page that changes is always noticed, so that the
    file it was changed in is refused in place of the other. -/

namespace ProfilerGetSymbols

open ProgLib

namespace DebugId

/-- The XOR of a column of the first page. -/
def pageColumn (page : Bytes) (k : Nat) : UInt8 :=
  columnFold (· ^^^ ·) 16 k 0 0 (page.take 4096)

/-! ## XOR -/

theorem xor_left_injective (b : UInt8) : Function.Injective (fun acc : UInt8 => acc ^^^ b) := by
  intro acc acc' h
  exact UInt8.xor_left_inj b |>.mp h

theorem xor_right_injective (acc : UInt8) : Function.Injective (acc ^^^ · : UInt8 → UInt8) := by
  intro b b' h
  exact UInt8.xor_right_inj acc |>.mp h

/-- The loop over the page folds the columns, each into its place. -/
theorem getElem?_xorInto (hash : Bytes) (i : Nat) (bytes : Bytes) (k : Nat) :
    (xorInto hash i bytes)[k]? = hash[k]?.map (fun acc => columnFold (· ^^^ ·) 16 k i acc bytes) := by
  induction bytes generalizing hash i with
  | nil =>
      rw [xorInto]
      cases hash[k]? <;> rfl
  | cons b bytes ih =>
      rw [xorInto, ih, List.getElem?_modify]
      cases hash[k]? with
      | none => rfl
      | some acc => rfl

theorem xorInto_page (page : Bytes) :
    xorInto (List.replicate 16 0) 0 (page.take 4096) = (List.range 16).map (pageColumn page) := by
  refine List.ext_getElem? (fun k => ?_)
  rw [getElem?_xorInto, List.getElem?_map]
  by_cases hk : k < 16
  · rw [List.getElem?_replicate, if_pos hk, List.getElem?_range hk]
    rfl
  · rw [List.getElem?_replicate, if_neg hk, List.getElem?_eq_none (by simp; omega)]
    rfl

/-! ## From 16 bytes to a debug ID -/

/-- The bytes of an identifier that count, with zeros for those that are missing. -/
def sixteenBytes (identifier : Bytes) : Bytes := (identifier ++ List.replicate 16 0).take 16

theorem fields_append (d : Bytes) :
    d.take 4 ++ (d.drop 4).take 2 ++ (d.drop 6).take 2 ++ d.drop 8 = d := by
  have h8 : (d.drop 6).take 2 ++ d.drop 8 = d.drop 6 := by
    rw [show d.drop 8 = (d.drop 6).drop 2 by rw [List.drop_drop], List.take_append_drop]
  have h6 : (d.drop 4).take 2 ++ d.drop 6 = d.drop 4 := by
    rw [show d.drop 6 = (d.drop 4).drop 2 by rw [List.drop_drop], List.take_append_drop]
  rw [List.append_assoc, List.append_assoc, h8, h6, List.take_append_drop]

/-- The order of the bytes in a field loses nothing. -/
theorem swapFields_injective {d d' : Bytes} (hd : d.length = 16) (hd' : d'.length = 16)
    (h : swapFields d = swapFields d') : d = d' := by
  rw [swapFields, swapFields] at h
  obtain ⟨h, h8⟩ := List.append_inj' h (by simp [hd, hd'])
  obtain ⟨h, h6⟩ := List.append_inj' h (by simp [hd, hd'])
  obtain ⟨h0, h4⟩ := List.append_inj' h (by simp [hd, hd'])
  rw [← fields_append d, ← fields_append d', h8, List.reverse_injective h6,
    List.reverse_injective h4, List.reverse_injective h0]

theorem length_sixteenBytes (identifier : Bytes) : (sixteenBytes identifier).length = 16 := by
  rw [sixteenBytes, List.length_take, List.length_append, List.length_replicate]
  omega

theorem getElem?_sixteenBytes (identifier : Bytes) {k : Nat} (hk : k < 16) :
    (sixteenBytes identifier)[k]? = some (identifier.getD k 0) := by
  rw [sixteenBytes, List.getElem?_take, if_pos hk, List.getElem?_append]
  by_cases hlt : k < identifier.length
  · rw [if_pos hlt, List.getD_eq_getElem?_getD, List.getElem?_eq_getElem hlt, Option.getD_some]
  · rw [if_neg hlt, List.getElem?_replicate, if_pos (by omega), List.getD_eq_default _ _ (by omega)]

/-- Two identifiers have one debug ID if and only if their first 16 bytes agree. -/
theorem fromIdentifier_eq_iff (a b : Bytes) (littleEndian : Bool) :
    fromIdentifier a littleEndian = fromIdentifier b littleEndian ↔
      ∀ k < 16, a.getD k 0 = b.getD k 0 := by
  have hbytes : sixteenBytes a = sixteenBytes b ↔ ∀ k < 16, a.getD k 0 = b.getD k 0 := by
    constructor
    · intro h k hk
      have hget := congrArg (·[k]?) h
      rw [getElem?_sixteenBytes a hk, getElem?_sixteenBytes b hk] at hget
      exact Option.some.inj hget
    · intro h
      refine List.ext_getElem? (fun k => ?_)
      by_cases hk : k < 16
      · rw [getElem?_sixteenBytes a hk, getElem?_sixteenBytes b hk, h k hk]
      · rw [List.getElem?_eq_none (by rw [length_sixteenBytes]; omega),
          List.getElem?_eq_none (by rw [length_sixteenBytes]; omega)]
  rw [← hbytes]
  constructor
  · intro h
    cases littleEndian with
    | true =>
        exact swapFields_injective (length_sixteenBytes a) (length_sixteenBytes b)
          (DebugId.mk.inj h).1
    | false => exact (DebugId.mk.inj h).1
  · intro h
    show (⟨if littleEndian then swapFields (sixteenBytes a) else sixteenBytes a, 0⟩ : DebugId)
      = ⟨if littleEndian then swapFields (sixteenBytes b) else sixteenBytes b, 0⟩
    rw [h]

/-! ## From a page of code to a debug ID -/

theorem fromTextFirstPage_eq (page : Bytes) (littleEndian : Bool) :
    fromTextFirstPage page littleEndian
      = fromIdentifier ((List.range 16).map (pageColumn page)) littleEndian := by
  rw [fromTextFirstPage, xorInto_page]

/-- Two pages have one debug ID if and only if the XORs of their columns agree. -/
theorem fromTextFirstPage_eq_iff (page page' : Bytes) (littleEndian : Bool) :
    fromTextFirstPage page littleEndian = fromTextFirstPage page' littleEndian ↔
      ∀ k < 16, pageColumn page k = pageColumn page' k := by
  have hcolumn : ∀ (page : Bytes) k, k < 16 →
      ((List.range 16).map (pageColumn page)).getD k 0 = pageColumn page k := by
    intro page k hk
    rw [List.getD_eq_getElem?_getD, List.getElem?_map, List.getElem?_range hk, Option.map_some,
      Option.getD_some]
  rw [fromTextFirstPage_eq, fromTextFirstPage_eq, fromIdentifier_eq_iff]
  constructor
  · intro h k hk
    rw [← hcolumn page k hk, ← hcolumn page' k hk]
    exact h k hk
  · intro h k hk
    rw [hcolumn page k hk, hcolumn page' k hk]
    exact h k hk

/-- **A BYTE THAT CHANGES**: the debug ID stays the same if and only if the byte is behind
    the first page or is the one that was there. -/
theorem fromTextFirstPage_set_eq_iff (page : Bytes) {i : Nat} (hi : i < page.length) (b : UInt8)
    (littleEndian : Bool) :
    fromTextFirstPage (page.set i b) littleEndian = fromTextFirstPage page littleEndian ↔
      4096 ≤ i ∨ page[i]? = some b := by
  rw [fromTextFirstPage_eq_iff]
  by_cases hpage : i < 4096
  · have htake : (page.set i b).take 4096 = (page.take 4096).set i b := List.take_set ..
    have hlt : i < (page.take 4096).length := by
      rw [List.length_take]
      omega
    have hget : (page.take 4096)[i]? = page[i]? := by
      rw [List.getElem?_take, if_pos hpage]
    have hone := columnFold_set_eq_iff (n := 16) (k := i % 16) xor_left_injective
      xor_right_injective 0 0 b (by rw [Nat.zero_add]) hlt
    rw [hget] at hone
    constructor
    · intro h
      right
      have hk := h (i % 16) (Nat.mod_lt _ (by decide))
      rw [pageColumn, pageColumn, htake] at hk
      exact hone.mp hk
    · rintro (hbehind | hsame)
      · omega
      · intro k hk
        rw [pageColumn, pageColumn, htake]
        by_cases hcolumn : i % 16 = k
        · subst hcolumn
          exact hone.mpr hsame
        · exact columnFold_set_of_ne 0 0 _ b (by rw [Nat.zero_add]; exact hcolumn)
  · constructor
    · intro _
      exact Or.inl (by omega)
    · intro _ k hk
      rw [pageColumn, pageColumn, List.take_set_of_le (by omega)]

end DebugId

/-! ## Files without a build ID -/

section Refusal

open Paths

/-- The object has nothing but this first page of code to know it by. -/
structure HasFirstPage (obj : ObjectFile) (page : Bytes) : Prop where
  noPdbInfo : obj.pdbInfo = none
  noBuildId : obj.buildId = none
  noMachUuid : obj.machUuid = none
  readable : ∃ text, obj.sections.find? (·.kind = .text) = some text ∧
    text.dataRange text.address (min text.size 4096) = some page

theorem HasFirstPage.debugId {obj : ObjectFile} {page : Bytes} (hpage : HasFirstPage obj page) :
    debugIdForObject obj = some (.fromTextFirstPage page obj.isLittleEndian) := by
  obtain ⟨text, hfind, hdata⟩ := hpage.readable
  rw [debugIdForObject, hpage.noPdbInfo, hpage.noBuildId, hpage.noMachUuid]
  show (obj.sections.find? (·.kind = .text)).bind _ = _
  rw [hfind, Option.bind_some, hdata]
  rfl

variable [Crates] [Platform] [Target] (R : Type) [SymbolicationResult R]

/-- An ELF file that parses: the check of its debug ID, and then its symbols. -/
theorem elf_getSymbolicationResult_eq {basePath : BasePath} {fileKind : FileKind}
    {contents : FileContents} {query : SymbolicationQuery} {obj : ObjectFile} {debugId : DebugId}
    (hparse : Crates.parseFile contents.fullRange = .ok obj)
    (hid : debugIdForObject obj = some debugId) :
    Elf.getSymbolicationResult R basePath fileKind contents query
      = if debugId ≠ query.debugId then .err (.unmatchedDebugId debugId query.debugId)
        else Elf.getSymbolicationResultImpl R ((Elf.debugdataObject obj).getD (obj, contents)).1
          basePath ((Elf.debugdataObject obj).getD (obj, contents)).2 query := by
  rw [Elf.getSymbolicationResult, hparse]
  show (do
    let elfFile ← (.ok obj : Call GetSymbolsError ObjectFile)
    _) = _
  rw [Outcome.ok_bind, hid]
  by_cases hne : debugId ≠ query.debugId
  · rw [if_pos hne]
    exact if_pos hne
  · rw [if_neg hne]
    refine (if_neg hne).trans ?_
    cases Elf.debugdataObject obj with
    | none => rfl
    | some inner => rfl

/-- **A PAGE THAT CHANGES**: of two ELF files of one byte order whose first pages differ in one
    byte at most, the one is refused in place of the other, whatever is asked of it, where
    the byte is another one; where it is the same, the file answers by itself. -/
theorem elf_changedPage_cases (basePath : BasePath) (fileKind : FileKind)
    {contents : FileContents} {obj obj' : ObjectFile} {page : Bytes} {i : Nat} {b : UInt8}
    {query : SymbolicationQuery} (hpage : HasFirstPage obj page)
    (hquery : debugIdForObject obj = some query.debugId)
    (hparse : Crates.parseFile contents.fullRange = .ok obj')
    (hpage' : HasFirstPage obj' (page.set i b)) (hi : i < page.length) (hlt : i < 4096)
    (hendian : obj'.isLittleEndian = obj.isLittleEndian) :
    let source := (Elf.debugdataObject obj').getD (obj', contents)
    (page[i]? ≠ some b → ∃ other, other ≠ query.debugId ∧
      Elf.getSymbolicationResult R basePath fileKind contents query
        = .err (.unmatchedDebugId other query.debugId)) ∧
    (page[i]? = some b → Elf.getSymbolicationResult R basePath fileKind contents query
      = Elf.getSymbolicationResultImpl R source.1 basePath source.2 query) := by
  intro source
  have hid : DebugId.fromTextFirstPage page obj.isLittleEndian = query.debugId :=
    Option.some.inj (hpage.debugId.symm.trans hquery)
  have hid' := hpage'.debugId
  rw [hendian] at hid'
  have hsame : DebugId.fromTextFirstPage (page.set i b) obj.isLittleEndian = query.debugId ↔
      page[i]? = some b := by
    rw [← hid, DebugId.fromTextFirstPage_set_eq_iff page hi b]
    exact or_iff_right (Nat.not_le.mpr hlt)
  have hanswer : Elf.getSymbolicationResult R basePath fileKind contents query = _ :=
    elf_getSymbolicationResult_eq R hparse hid'
  constructor
  · intro hother
    have hne := mt hsame.mp hother
    exact ⟨_, hne, hanswer.trans (if_pos hne)⟩
  · intro hbyte
    exact hanswer.trans (if_neg (not_not_intro (hsame.mpr hbyte)))

end Refusal

section Sample

open Paths

local instance pagePlatform : Platform := unix

local instance pageTarget : Target := ⟨64⟩

/-- An object with a page of code and nothing else. -/
def pageObject (page : Bytes) : ObjectFile :=
  { ObjectFile.bare with
    sections := [⟨.text, 0, page.length, some page, some page, none, fun _ _ => some page⟩] }

/-- Crates to which every file is an object with this page. -/
abbrev pageCrates (page : Bytes) : Crates :=
  { Crates.nothing with parseFile := fun _ => .ok (pageObject page) }

theorem hasFirstPage_pageObject (page : Bytes) : HasFirstPage (pageObject page) page :=
  ⟨rfl, rfl, rfl, _, rfl, rfl⟩

/-- A byte that is not zero any more. -/
theorem elf_changedPage_cases_zeros :
    let _ : Crates := pageCrates [0, 7]
    let query : SymbolicationQuery :=
      ⟨"libfoo.so", ⟨List.replicate 16 0, 0⟩, .symbolsForAddresses [1] true⟩
    ∃ other, other ≠ query.debugId ∧
      Elf.getSymbolicationResult LookedUpAddresses .noLocalSourceFileAccess .elf64 (.zeros 4096)
        query = .err (.unmatchedDebugId other query.debugId) := by
  intro crates query
  exact (elf_changedPage_cases LookedUpAddresses .noLocalSourceFileAccess .elf64 (i := 1) (b := 7)
    (hasFirstPage_pageObject [0, 0]) (by decide) rfl (hasFirstPage_pageObject [0, 7]) (by decide)
    (by decide) rfl).1 (by decide)

end Sample

end ProfilerGetSymbols
