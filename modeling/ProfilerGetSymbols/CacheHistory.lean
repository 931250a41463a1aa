import ProfilerGetSymbols.Cache
import ProfilerGetSymbols.BufferReuse
import ProfilerGetSymbols.Object

/-! # The string cache and history — when an answer depends on earlier calls

    `read_bytes_at_until` keeps the strings it has found under the start of the
    range and the delimiter, but not under the range's end.  A later call on a
    shorter range with the same start is answered from that cache, also when the
    delimiter lies beyond the shorter range, where a fresh object and the slice
    implementation answer with an error. -/

namespace ProfilerGetSymbols.Cache

open ProgLib ChunkedReadBufferManager

variable [Target] {M : Type} [RangeMap M Nat] {E : Type}

/-! ## What an answer has to be -/

/-- A source of the file `F` that does not fail. -/
def Serves (F : Bytes) (source : FileByteSource E) : Prop :=
  ∀ offset size, offset + size ≤ F.length → source offset size = .ok (slice F offset (offset + size))

/-- `p` is the first place of the delimiter at or after `start`. -/
def FirstAt (F : Bytes) (start : Nat) (delimiter : UInt8) (p : Nat) : Prop :=
  start ≤ p ∧ F[p]? = some delimiter ∧ ∀ q, start ≤ q → q < p → F[q]? ≠ some delimiter

/-- The bytes before the first delimiter where it lies among the first `len` bytes
    of the range, an error where it does not. -/
structure FindsWithin {ε : Type} (len : Nat) (F : Bytes) (range : ByteRange) (delimiter : UInt8)
    (answer : Call ε Bytes) : Prop where
  found : ∀ p, FirstAt F range.start delimiter p → p < range.start + len →
    answer = .ok (slice F range.start p)
  notFound : (∀ p, range.start ≤ p → p < range.start + len → F[p]? ≠ some delimiter) →
    ∃ e, answer = .err e

/-- Two calls answer the same bytes, or both answer with an error. -/
def SameAnswer {ε ε' : Type} : Call ε Bytes → Call ε' Bytes → Prop
  | .ok a, .ok b => a = b
  | .err _, .err _ => True
  | _, _ => False

/-- An answer of `read_bytes_at_until` is **FREE OF HISTORY** if it is found within the
    first 4096 bytes of the range, a fresh object answers the same, and so does the
    slice where no delimiter of the range lies beyond those bytes only. -/
structure HistoryFree (M : Type) [RangeMap M Nat] (F : Bytes) (source : FileByteSource E)
    (range : ByteRange) (delimiter : UInt8) (answer : Call (CacheError E) Bytes) : Prop where
  specified : FindsWithin (searchLen range) F range delimiter answer
  asFresh : SameAnswer answer
    ((readBytesAtUntil source range delimiter).run
      (new F.length : FileContentsWithChunkedCaching M)).1
  asSlice : F.length < 2 ^ Target.usizeBits →
    (∀ p, FirstAt F range.start delimiter p → p < range.stop →
      p < range.start + maxLengthIncludingDelimiter) →
    SameAnswer answer
      (Outcome.ofExcept ((FileContents.ofBytes F).readBytesAtUntil range delimiter)
        : Call String Bytes)

/-- Every call of the sequence returns. -/
def Returned (c : FileContentsWithChunkedCaching M) (calls : List (CacheCall E)) : Prop :=
  ∀ before call after, calls = before ++ call :: after →
    ∀ site, (call.method.run (runCalls c before)).1 ≠ .panic site

/-- The string kept for the start and the delimiter, if any, is shorter than the
    part of the range that is searched, which ends a chunk below `2 ^ 64`. -/
def AnsweredAfresh (c : FileContentsWithChunkedCaching M) (range : ByteRange)
    (delimiter : UInt8) : Prop :=
  range.start + searchLen range + 32767 < 2 ^ 64 ∧
    ∀ location, c.stringCache.get? (range.start, delimiter) = some location →
      location.size < searchLen range

/-! ## Answers that are found -/

omit [Target] in
/-- Whatever is found within the same length is the same. -/
theorem FindsWithin.same {ε ε' : Type} {len : Nat} {F : Bytes} {range : ByteRange}
    {delimiter : UInt8} {x : Call ε Bytes} {y : Call ε' Bytes}
    (hx : FindsWithin len F range delimiter x) (hy : FindsWithin len F range delimiter y) :
    SameAnswer x y := by
  by_cases hp : ∃ p, range.start ≤ p ∧ p < range.start + len ∧ F[p]? = some delimiter
  · -- the least such place is the first one
    classical
    have hfirst := Nat.find_spec hp
    have hleast : FirstAt F range.start delimiter (Nat.find hp) :=
      ⟨hfirst.1, hfirst.2.2, fun q h1 h2 hq =>
        Nat.find_min hp h2 ⟨h1, Nat.lt_trans h2 hfirst.2.1, hq⟩⟩
    rw [hx.found _ hleast hfirst.2.1, hy.found _ hleast hfirst.2.1]
    exact rfl
  · push Not at hp
    obtain ⟨e, he⟩ := hx.notFound hp
    obtain ⟨e', he'⟩ := hy.notFound hp
    rw [he, he']
    exact trivial

omit [Target] in
/-- A search that finds nothing beyond the shorter length finds the same in both. -/
theorem FindsWithin.shorten {ε : Type} {len len' : Nat} {F : Bytes} {range : ByteRange}
    {delimiter : UInt8} {x : Call ε Bytes} (h : FindsWithin len F range delimiter x)
    (hle : len' ≤ len) (hbetween : ∀ p, FirstAt F range.start delimiter p →
      p < range.start + len → p < range.start + len') :
    FindsWithin len' F range delimiter x where
  found := fun p hp hlt => h.found p hp (by omega)
  notFound := by
    intro hnone
    refine h.notFound ?_
    intro p hlo hhi hp
    have hex : ∃ p, range.start ≤ p ∧ p < range.start + len ∧ F[p]? = some delimiter :=
      ⟨p, hlo, hhi, hp⟩
    classical
    have hspec := Nat.find_spec hex
    have hfirst : FirstAt F range.start delimiter (Nat.find hex) :=
      ⟨hspec.1, hspec.2.2, fun q h1 h2 hq =>
        Nat.find_min hex h2 ⟨h1, Nat.lt_trans h2 hspec.2.1, hq⟩⟩
    exact hnone _ hspec.1 (hbetween _ hfirst hspec.2.1) hspec.2.2

omit [Target] in
/-- The search itself: `memchr` in the slice of the file. -/
theorem findsWithin_memchr {ε : Type} {F : Bytes} {range : ByteRange} {delimiter : UInt8}
    {len : Nat} (hend : range.start + len ≤ F.length) {e : ε} :
    FindsWithin len F range delimiter
      (match memchr delimiter (slice F range.start (range.start + len)) with
        | some pos => .ok (slice (slice F range.start (range.start + len)) 0 pos)
        | none => .err e : Call ε Bytes) := by
  have hlen : (slice F range.start (range.start + len)).length = len := by
    rw [length_slice hend]
    omega
  cases hfind : memchr delimiter (slice F range.start (range.start + len)) with
  | some pos =>
      obtain ⟨hpos, p, hlo, hp, hbefore, hslice⟩ := isStringAt_of_memchr hend hfind
      -- the place found is the first one, so any other first place is the same
      have hp' : p < range.start + len := by
        obtain ⟨hlt, -, -⟩ := List.findIdx?_eq_some_iff_getElem.mp hfind
        rw [hlen] at hlt
        have hF : p ≤ F.length := Nat.le_of_lt (List.getElem?_eq_some_iff.mp hp).1
        have hsize := congrArg List.length hslice
        rw [slice_slice (by omega), length_slice (by omega), length_slice hF] at hsize
        omega
      refine ⟨?_, ?_⟩
      · intro p' hp'' hlt
        have hpp : p' = p := by
          rcases Nat.lt_trichotomy p' p with h | h | h
          · exact absurd hp''.2.1 (hbefore p' hp''.1 h)
          · exact h
          · exact absurd hp (hp''.2.2 p hlo h)
        rw [hpp]
        exact congrArg Outcome.ok hslice
      · intro hnone
        exact absurd hp (hnone p hlo hp')
  | none =>
      refine ⟨?_, fun _ => ⟨e, rfl⟩⟩
      intro p hp hlt
      have hin : (slice F range.start (range.start + len))[p - range.start]? = some delimiter := by
        rw [getElem?_slice (by have := hp.1; omega), show range.start + (p - range.start) = p by
          have := hp.1
          omega]
        exact hp.2.1
      have hmem : delimiter ∈ slice F range.start (range.start + len) :=
        List.mem_of_getElem? hin
      have hnot := List.findIdx?_eq_none_iff.mp hfind delimiter hmem
      simp at hnot

/-- What the slice implementation finds. -/
theorem findsWithin_slice {F : Bytes} {range : ByteRange} {delimiter : UInt8}
    (hF : F.length < 2 ^ Target.usizeBits) (hle : range.start ≤ range.stop)
    (hend : range.stop ≤ F.length) :
    FindsWithin (range.stop - range.start) F range delimiter
      (Outcome.ofExcept ((FileContents.ofBytes F).readBytesAtUntil range delimiter)
        : Call String Bytes) := by
  have hread : sliceReadBytesAt F range.start (range.stop - range.start)
      = .ok (slice F range.start (range.start + (range.stop - range.start))) := by
    simp only [sliceReadBytesAt, asUsize_of_lt (show range.start < 2 ^ Target.usizeBits by omega),
      asUsize_of_lt (show range.stop - range.start < 2 ^ Target.usizeBits by omega)]
    rw [if_pos (by omega)]
  have hanswer : (Outcome.ofExcept ((FileContents.ofBytes F).readBytesAtUntil range delimiter)
        : Call String Bytes)
      = match memchr delimiter (slice F range.start (range.start + (range.stop - range.start))) with
        | some pos =>
            .ok (slice (slice F range.start (range.start + (range.stop - range.start))) 0 pos)
        | none => .err "Delimiter not found" := by
    simp only [FileContents.ofBytes, if_neg (show ¬ range.stop < range.start by omega), hread,
      memchr, bind, Except.bind]
    cases hfind : (slice F range.start (range.start + (range.stop - range.start))).findIdx?
      (· == delimiter) with
    | none => rfl
    | some pos => simp [Outcome.ofExcept, slice, pure, Except.pure]
  rw [hanswer]
  exact findsWithin_memchr (by omega)

/-! ## Lookups -/

omit [Target] in
theorem Serves.faithful {F : Bytes} {source : FileByteSource E} (h : Serves F source) :
    FaithfulTo F source := by
  intro offset size bytes hread hend
  rw [h offset size hend] at hread
  exact (Except.ok.inj hread).symm

omit [Target] in
/-- At the top of `u64` rounding up wraps around to zero. -/
theorem roundUpToMultiple_wraps {value : Nat} (hvalue : value < 2 ^ 64)
    (hwrap : 2 ^ 64 ≤ value + 32767) : roundUpToMultiple value chunkSize = 0 := by
  have hsum : u64Sub (u64Add value chunkSize) 1 = value + 32767 - 2 ^ 64 := by
    simp only [u64Add, u64Sub, chunkSize]
    omega
  rw [roundUpToMultiple, hsum, Nat.div_eq_of_lt (by simp only [chunkSize]; omega), Nat.zero_mul]

/-- A read around a range whose rounded end wraps around panics, unless the source
    fails even on an empty read. -/
theorem getRangeLocation_wraps {F : Bytes} {c : FileContentsWithChunkedCaching M}
    {source : FileByteSource E} (hsrc : FaithfulTo F source) {range readRange : ByteRange}
    (hstop : readRange.stop = 0)
    (hdet : (determineRangeSourcing chunkSize c.bufferManager range
        : Call (CacheError E) RangeSourcing) = .ok (.needToReadNewBuffer readRange)) :
    (∃ site c', (getRangeLocation source range).run c = (.panic site, c')) ∨
    (∃ e e', (getRangeLocation source range).run c = (.err e, c) ∧ source 0 0 = .error e') := by
  by_cases hstart : readRange.start = 0
  case neg =>
    refine Or.inl ⟨.invertedReadRange, c, ?_⟩
    have horder : (Outcome.assert .invertedReadRange (readRange.start ≤ readRange.stop)
        : Call (CacheError E) Unit) = .panic .invertedReadRange := if_neg (by omega)
    unfold getRangeLocation
    simp only [Stateful.run_bind, Stateful.run_get, Stateful.run_lift, hdet, horder]
  -- the read range is `0..0`, which the manager refuses to insert
  obtain ⟨start, stop⟩ := readRange
  obtain rfl : start = 0 := hstart
  obtain rfl : stop = 0 := hstop
  have horder : (Outcome.assert .invertedReadRange (0 ≤ 0) : Call (CacheError E) Unit)
      = .ok () := if_pos (Nat.le_refl 0)
  have hlen : (tryIntoUsize (0 - 0) : Call (CacheError E) Nat) = .ok 0 :=
    if_pos (Nat.two_pow_pos Target.usizeBits)
  cases hread : source 0 0 with
  | error e =>
      refine Or.inr ⟨.source e, e, ?_, rfl⟩
      unfold getRangeLocation
      simp only [Stateful.run_bind, Stateful.run_get, Stateful.run_lift, hdet, horder, hlen,
        readBytesInto, hread]
  | ok buffer =>
      refine Or.inl ⟨.emptyRangeInsert, { c with buffers := c.buffers ++ [buffer] }, ?_⟩
      have hempty : buffer.length = 0 := by
        rw [hsrc 0 0 buffer hread (Nat.zero_le _)]
        simp [slice]
      have hassert : (Outcome.assert .wrongReadLength (buffer.length = 0)
          : Call (CacheError E) Unit) = .ok () := if_pos hempty
      have hinsert : (insertBufferRange c.bufferManager ⟨0, 0⟩ c.buffers.length
          : Call (CacheError E) (Manager M)) = .panic .emptyRangeInsert := rfl
      unfold getRangeLocation
      simp only [Stateful.run_bind, Stateful.run_get, Stateful.run_lift, Stateful.run_set, hdet,
        horder, hlen, readBytesInto, hread, hassert, hinsert]

/-- Any lookup inside the file finds the bytes, fails without a change, or panics. -/
theorem getRangeLocation_cases [LawfulRangeMap M] {F : Bytes} (hF64 : F.length < 2 ^ 64)
    {c : FileContentsWithChunkedCaching M} (hc : Coherent F c) {source : FileByteSource E}
    (hsrc : FaithfulTo F source) {range : ByteRange} (hne : range.start < range.stop)
    (hend : range.stop ≤ F.length) :
    Located F c range ((getRangeLocation source range).run c) ∨
      ∃ site c', (getRangeLocation source range).run c = (.panic site, c') := by
  by_cases hfit : range.stop + 32767 < 2 ^ 64
  · exact Or.inl (getRangeLocation_spec hF64 hc hsrc hfit hne hend)
  rcases determineRangeSourcing_cases (CacheError E) chunkSize hc.pieces hne
      (hc.managerLen ▸ hend) with ⟨i, b, hb, hlo, hhi, hdet⟩ | ⟨cached, hdet⟩
  · obtain ⟨location, hrun, hholds⟩ :=
      getRangeLocation_existing hc source hne hF64 hb hlo hhi hdet
    exact Or.inl (Or.inl ⟨location, c, hrun, hc, rfl, hholds⟩)
  · have hstop : (readRangeFor chunkSize c.bufferManager.fileLen cached range).stop = 0 := by
      show min (roundUpToMultiple range.stop chunkSize) _ = 0
      rw [roundUpToMultiple_wraps (by omega) (by omega), Nat.zero_min]
    rcases getRangeLocation_wraps hsrc hstop hdet with hpanic | ⟨e, -, hrun, -⟩
    · exact Or.inr hpanic
    · exact Or.inl (Or.inr ⟨e, hrun⟩)

/-- A call that returns keeps the invariant. -/
theorem coherent_of_returned [LawfulRangeMap M] {F : Bytes} (hF64 : F.length < 2 ^ 64)
    {c : FileContentsWithChunkedCaching M} (hc : Coherent F c) {call : CacheCall E}
    (hsrc : FaithfulTo F call.source)
    (hreturned : ∀ site, (call.method.run c).1 ≠ .panic site) :
    Coherent F (call.method.run c).2 := by
  obtain ⟨request, source⟩ := call
  cases request with
  | readBytesAt offset size =>
      refine (readBytesAt_sound hc source offset size ?_).1
      intro hlt hend
      -- a panic in the lookup would be the panic of the call
      refine (getRangeLocation_cases hF64 hc hsrc hlt hend).resolve_right ?_
      rintro ⟨site, c', hpanic⟩
      refine hreturned site ?_
      show ((readBytesAt source offset size).run c).1 = .panic site
      rw [readBytesAt, if_neg (by omega), Stateful.run_bind, Stateful.run_get]
      simp only [if_neg (show ¬ 2 ^ 64 ≤ offset + size by omega),
        if_neg (show ¬ c.fileLen < offset + size by rw [hc.fileLen]; omega),
        Stateful.run_bind, hpanic]
  | readBytesAtUntil range delimiter =>
      refine (readBytesAtUntil_sound hF64 hc source delimiter ?_).1
      intro hcached hle hend
      have hmax : searchLen range ≤ range.stop - range.start := Nat.min_le_left _ _
      have hrun : ∀ site c', (getRangeLocation source
          ⟨range.start, range.start + searchLen range⟩).run c = (.panic site, c') → False := by
        intro site c' hpanic
        refine hreturned site ?_
        show ((readBytesAtUntil source range delimiter).run c).1 = .panic site
        rw [readBytesAtUntil, Stateful.run_bind, Stateful.run_get]
        simp only [if_neg (show ¬ range.stop < range.start by omega),
          if_neg (show ¬ c.fileLen < range.stop by rw [hc.fileLen]; omega), hcached,
          show min (range.stop - range.start) maxLengthIncludingDelimiter = searchLen range
            from rfl, u64Add_of_lt (show range.start + searchLen range < 2 ^ 64 by omega),
          Stateful.run_bind, hpanic]
      by_cases hne : range.start < range.start + searchLen range
      · refine (getRangeLocation_cases hF64 hc hsrc hne
          (show range.start + searchLen range ≤ F.length by omega)).resolve_right ?_
        rintro ⟨site, c', hpanic⟩
        exact hrun site c' hpanic
      · -- an empty range: the first assertion of the manager fails
        refine (hrun .emptyRange c ?_).elim
        have hassert : (Outcome.assert .emptyRange
            (range.start < range.start + searchLen range) : Call (CacheError E) Unit)
            = .panic .emptyRange := if_neg hne
        unfold getRangeLocation
        simp only [Stateful.run_bind, Stateful.run_get, Stateful.run_lift,
          determineRangeSourcing, hassert, Outcome.panic_bind]

theorem coherent_of_runCalls_returned [LawfulRangeMap M] {F : Bytes} (hF64 : F.length < 2 ^ 64)
    {c : FileContentsWithChunkedCaching M} (hc : Coherent F c) {calls : List (CacheCall E)}
    (hcalls : ∀ call ∈ calls, FaithfulTo F call.source) (hreturned : Returned c calls) :
    Coherent F (runCalls c calls) := by
  induction calls generalizing c with
  | nil => exact hc
  | cons call rest ih =>
      have hnext := coherent_of_returned hF64 hc (hcalls call (List.mem_cons_self ..))
        (hreturned [] call rest rfl)
      refine ih hnext (fun call' h => hcalls call' (List.mem_cons_of_mem _ h)) ?_
      intro before call' after hsplit
      exact hreturned (call :: before) call' after (by rw [hsplit]; rfl)

/-! ## One answer -/

section Answer

variable [LawfulRangeMap M] {F : Bytes} {source : FileByteSource E} {range : ByteRange}
  {delimiter : UInt8}

omit [Target] in
/-- A read around a short range is shorter than four chunks. -/
theorem readRangeFor_width (fileLen : Nat) (cached : Bool) {range : ByteRange}
    (hfit : range.stop + 32767 < 2 ^ 64) (hwidth : range.stop ≤ range.start + 4096) :
    (readRangeFor chunkSize fileLen cached range).stop
      - (readRangeFor chunkSize fileLen cached range).start < 2 ^ 32 := by
  have hup : roundUpToMultiple range.stop chunkSize ≤ range.stop + 32767 := by
    have hsum : u64Sub (u64Add range.stop chunkSize) 1 = range.stop + 32767 := by
      simp only [u64Add, u64Sub, chunkSize]
      omega
    rw [roundUpToMultiple, hsum]
    exact Nat.div_mul_le_self _ _
  have hdown : range.start < roundDownToMultiple range.start chunkSize + 32768 := by
    have hlt := Nat.mod_lt range.start (show 0 < chunkSize by decide)
    have hdiv := Nat.mod_add_div range.start chunkSize
    rw [roundDownToMultiple, Nat.mul_comm]
    have hc : chunkSize = 32768 := by decide
    omega
  have hstop : (readRangeFor chunkSize fileLen cached range).stop ≤ range.stop + 32767 :=
    Nat.le_trans (Nat.min_le_left _ _) hup
  have hstart : range.start < (readRangeFor chunkSize fileLen cached range).start + 32768 := by
    have hread : (readRangeFor chunkSize fileLen cached range).start
        = if cached then range.start else roundDownToMultiple range.start chunkSize := rfl
    rw [hread]
    cases cached with
    | true =>
        rw [if_pos rfl]
        omega
    | false => exact hdown
  omega

/-- A source that does not fail finds every range that is read in a length that a
    `usize` holds. -/
theorem getRangeLocation_found (hF64 : F.length < 2 ^ 64) {c : FileContentsWithChunkedCaching M}
    (hc : Coherent F c) (hsource : Serves F source) (range : ByteRange)
    (hfit : range.stop + 32767 < 2 ^ 64) (hne : range.start < range.stop)
    (hend : range.stop ≤ F.length)
    (hwidth : ∀ cached, (readRangeFor chunkSize F.length cached range).stop
      - (readRangeFor chunkSize F.length cached range).start < 2 ^ Target.usizeBits) :
    ∃ location c', (getRangeLocation source range).run c = (.ok location, c') ∧
      Holds c'.buffers location (slice F range.start range.stop) := by
  rcases determineRangeSourcing_cases (CacheError E) chunkSize hc.pieces hne
      (hc.managerLen ▸ hend) with ⟨i, b, hb, hlo, hhi, hdet⟩ | ⟨cached, hdet⟩
  · obtain ⟨location, hrun, hholds⟩ :=
      getRangeLocation_existing hc source hne hF64 hb hlo hhi hdet
    exact ⟨location, c, hrun, hholds⟩
  · rw [hc.managerLen] at hdet
    obtain ⟨h1, h2, h3⟩ :=
      readRangeFor_covers chunkSize F.length (by decide) cached range hfit hend
    rcases getRangeLocation_read hc hsource.faithful hne hF64 h1 h2 h3 hdet with
      ⟨location, c', hrun, -, -, hholds⟩ | ⟨e, -, hwide | ⟨e', hfails⟩⟩
    · exact ⟨location, c', hrun, hholds⟩
    · exact absurd (hwidth cached) (Nat.not_lt.mpr hwide)
    · rw [hsource _ _ (by omega)] at hfails
      cases hfails

/-- A source that does not fail always finds a short range. -/
theorem getRangeLocation_serves (hF64 : F.length < 2 ^ 64) (hbits : 32 ≤ Target.usizeBits)
    {c : FileContentsWithChunkedCaching M} (hc : Coherent F c) (hsource : Serves F source)
    (range : ByteRange) (hfit : range.stop + 32767 < 2 ^ 64)
    (hwidth : range.stop ≤ range.start + 4096) (hne : range.start < range.stop)
    (hend : range.stop ≤ F.length) :
    ∃ location c', (getRangeLocation source range).run c = (.ok location, c') ∧
      Holds c'.buffers location (slice F range.start range.stop) := by
  refine getRangeLocation_found hF64 hc hsource range hfit hne hend (fun cached => ?_)
  have hpow : 2 ^ 32 ≤ 2 ^ Target.usizeBits := Nat.pow_le_pow_right (by decide) hbits
  exact Nat.lt_of_lt_of_le (readRangeFor_width F.length cached hfit hwidth) hpow

/-- **AN UNCACHED ANSWER** is found in the part that is searched. -/
theorem findsWithin_uncached (hF64 : F.length < 2 ^ 64) (hbits : 32 ≤ Target.usizeBits)
    {c : FileContentsWithChunkedCaching M} (hc : Coherent F c) (hsource : Serves F source)
    (hfit : range.start + searchLen range + 32767 < 2 ^ 64) (hne : range.start < range.stop)
    (hend : range.stop ≤ F.length) (hcached : c.stringCache.get? (range.start, delimiter) = none) :
    FindsWithin (searchLen range) F range delimiter
      ((readBytesAtUntil source range delimiter).run c).1 := by
  have hmax : searchLen range ≤ range.stop - range.start := Nat.min_le_left _ _
  have hmax' : searchLen range ≤ 4096 := Nat.min_le_right _ _
  have hpos : 0 < searchLen range := Nat.lt_min.mpr ⟨Nat.sub_pos_of_lt hne, by decide⟩
  obtain ⟨location, c', hrun, hholds⟩ := getRangeLocation_serves hF64 hbits hc hsource
    ⟨range.start, range.start + searchLen range⟩ hfit
    (show range.start + searchLen range ≤ range.start + 4096 by omega)
    (show range.start < range.start + searchLen range by omega)
    (show range.start + searchLen range ≤ F.length by omega)
  -- with nothing kept, the answer is a search in the bytes themselves
  have hanswer : ((readBytesAtUntil source range delimiter).run c).1
      = match memchr delimiter (slice F range.start (range.start + searchLen range)) with
        | some pos => .ok (slice (slice F range.start (range.start + searchLen range)) 0 pos)
        | none => .err (.invalidInput "Could not find delimiter") := by
    unfold readBytesAtUntil
    rw [Stateful.run_bind, Stateful.run_get]
    simp only [if_neg (show ¬ range.stop < range.start by omega),
      if_neg (show ¬ c.fileLen < range.stop by rw [hc.fileLen]; omega), hcached,
      show min (range.stop - range.start) maxLengthIncludingDelimiter = searchLen range
        from rfl, u64Add_of_lt (show range.start + searchLen range < 2 ^ 64 by omega),
      Stateful.run_bind, hrun, Stateful.run_get, Stateful.run_lift,
      sliceFromLocation_of_holds hholds]
    cases hfind : memchr delimiter (slice F range.start (range.start + searchLen range)) with
    | none => rfl
    | some pos => rfl
  rw [hanswer]
  exact findsWithin_memchr (by omega)

omit [LawfulRangeMap M] in
/-- A cached answer is the string from the start to the first delimiter. -/
theorem cached_answer (source : FileByteSource E) {c : FileContentsWithChunkedCaching M} (hc : Coherent F c)
    {location : RangeLocation} (hle : range.start ≤ range.stop) (hend : range.stop ≤ F.length)
    (hcached : c.stringCache.get? (range.start, delimiter) = some location) :
    ∃ p, FirstAt F range.start delimiter p ∧ p = range.start + location.size ∧
      ((readBytesAtUntil source range delimiter).run c).1 = .ok (slice F range.start p) := by
  obtain ⟨bytes, hholds, p, hlo, hp, hbefore, hslice⟩ := hc.strings _ _ _ hcached
  have hF : p ≤ F.length := Nat.le_of_lt (List.getElem?_eq_some_iff.mp hp).1
  refine ⟨p, ⟨hlo, hp, hbefore⟩, ?_, ?_⟩
  · obtain ⟨buffer, -, hfits, hbuffer⟩ := hholds
    have hlen := congrArg List.length (hbuffer.trans hslice)
    rw [length_slice hfits, length_slice hF] at hlen
    omega
  · unfold readBytesAtUntil
    rw [Stateful.run_bind, Stateful.run_get]
    simp only [if_neg (show ¬ range.stop < range.start by omega),
      if_neg (show ¬ c.fileLen < range.stop by rw [hc.fileLen]; omega), hcached,
      Stateful.run_lift, sliceFromLocation_of_holds hholds, hslice]

/-- At the top of `u64` a fresh object panics. -/
theorem fresh_panics (delimiter : UInt8) (hF64 : F.length < 2 ^ 64) (hsource : Serves F source)
    (hwrap : ¬ range.start + searchLen range + 32767 < 2 ^ 64) (hne : range.start < range.stop)
    (hend : range.stop ≤ F.length) :
    ∃ site, ((readBytesAtUntil source range delimiter).run
      (new F.length : FileContentsWithChunkedCaching M)).1 = .panic site := by
  have hmax : searchLen range ≤ range.stop - range.start := Nat.min_le_left _ _
  have hpos : 0 < searchLen range := Nat.lt_min.mpr ⟨Nat.sub_pos_of_lt hne, by decide⟩
  have hc : Coherent F (new F.length : FileContentsWithChunkedCaching M) := coherent_new F
  -- rounding the end up wraps to 0, so the range to read is inverted
  have hpanics : ∃ site c', (getRangeLocation source ⟨range.start, range.start + searchLen range⟩).run
      (new F.length : FileContentsWithChunkedCaching M) = (.panic site, c') := by
    have hlt : (⟨range.start, range.start + searchLen range⟩ : ByteRange).start
        < range.start + searchLen range := Nat.lt_add_of_pos_right hpos
    have hin : range.start + searchLen range ≤ (new F.length :
        FileContentsWithChunkedCaching M).bufferManager.fileLen := by
      rw [hc.managerLen]
      omega
    rcases determineRangeSourcing_cases (CacheError E) chunkSize hc.pieces hlt hin with
      ⟨i, b, hb, -⟩ | ⟨cached, hdet⟩
    · exact absurd hb (by simp [new, newWithSize])
    · have hstop : (readRangeFor chunkSize F.length cached
          ⟨range.start, range.start + searchLen range⟩).stop = 0 := by
        show min (roundUpToMultiple (range.start + searchLen range) chunkSize) _ = 0
        rw [roundUpToMultiple_wraps (by omega) (by omega), Nat.zero_min]
      rcases getRangeLocation_wraps hsource.faithful hstop hdet with hpanic | ⟨e, e', -, hfails⟩
      · exact hpanic
      · rw [hsource 0 0 (Nat.zero_le _)] at hfails
        cases hfails
  obtain ⟨site, c', hpanic⟩ := hpanics
  refine ⟨site, ?_⟩
  have hcached : (new F.length : FileContentsWithChunkedCaching M).stringCache.get?
      (range.start, delimiter) = none := by simp [new]
  unfold readBytesAtUntil
  rw [Stateful.run_bind, Stateful.run_get]
  simp only [if_neg (show ¬ range.stop < range.start by omega),
    if_neg (show ¬ (new F.length : FileContentsWithChunkedCaching M).fileLen < range.stop by
      rw [hc.fileLen]; omega), hcached,
    show min (range.stop - range.start) maxLengthIncludingDelimiter = searchLen range
      from rfl, u64Add_of_lt (show range.start + searchLen range < 2 ^ 64 by omega),
    Stateful.run_bind, hpanic]

/-- Found within the first 4096 bytes of the range, the answer is all that it has to be. -/
theorem historyFree_of_findsWithin (hF64 : F.length < 2 ^ 64) (hbits : 32 ≤ Target.usizeBits)
    (hsource : Serves F source) (hfit : range.start + searchLen range + 32767 < 2 ^ 64)
    (hne : range.start < range.stop) (hend : range.stop ≤ F.length)
    {answer : Call (CacheError E) Bytes}
    (h : FindsWithin (searchLen range) F range delimiter answer) :
    HistoryFree M F source range delimiter answer where
  specified := h
  asFresh := h.same (findsWithin_uncached hF64 hbits (coherent_new F) hsource hfit hne hend
    (by simp [new]))
  asSlice := by
    intro hF hwithin
    refine h.same ((findsWithin_slice hF (Nat.le_of_lt hne) hend).shorten
      (Nat.min_le_left _ _) ?_)
    intro p hp hlt
    have h4096 := hwithin p hp (by omega)
    rw [searchLen]
    omega

end Answer

/-- **HISTORY**: after any calls that returned, the answer does not depend on them
    if and only if the string kept for the start and the delimiter is shorter than
    the part of the range that is searched. -/
theorem readBytesAtUntil_historyFree_iff [LawfulRangeMap M] (F : Bytes) (hF64 : F.length < 2 ^ 64)
    (hbits : 32 ≤ Target.usizeBits) (calls : List (CacheCall E))
    (hcalls : ∀ call ∈ calls, FaithfulTo F call.source)
    (hreturned : Returned (new F.length : FileContentsWithChunkedCaching M) calls)
    (source : FileByteSource E) (hsource : Serves F source) (range : ByteRange)
    (delimiter : UInt8) (hne : range.start < range.stop) (hend : range.stop ≤ F.length) :
    HistoryFree M F source range delimiter
        ((readBytesAtUntil source range delimiter).run
          (runCalls (new F.length : FileContentsWithChunkedCaching M) calls)).1 ↔
      AnsweredAfresh (runCalls (new F.length : FileContentsWithChunkedCaching M) calls)
        range delimiter := by
  have hc := coherent_of_runCalls_returned hF64 (coherent_new F) hcalls hreturned
  generalize runCalls (new F.length : FileContentsWithChunkedCaching M) calls = c at hc ⊢
  constructor
  · intro h
    refine ⟨?_, ?_⟩
    · -- at the top of `u64` the fresh object panics, so no answer is the same
      by_contra hwrap
      obtain ⟨site, hpanic⟩ :=
        fresh_panics (M := M) delimiter hF64 hsource hwrap hne hend
      have hsame := h.asFresh
      rw [hpanic] at hsame
      cases hanswer : ((readBytesAtUntil source range delimiter).run c).1 <;>
        rw [hanswer] at hsame <;> exact hsame
    · intro location hcached
      obtain ⟨p, hp, hsize, hanswer⟩ :=
        cached_answer source hc (Nat.le_of_lt hne) hend hcached
      -- a delimiter beyond the part that is searched calls for an error
      by_contra hlong
      obtain ⟨e, herr⟩ := h.specified.notFound (fun q hlo hhi => hp.2.2 q hlo (by omega))
      rw [hanswer] at herr
      cases herr
  · rintro ⟨hfit, hshort⟩
    refine historyFree_of_findsWithin hF64 hbits hsource hfit hne hend ?_
    cases hcached : c.stringCache.get? (range.start, delimiter) with
    | none => exact findsWithin_uncached hF64 hbits hc hsource hfit hne hend hcached
    | some location =>
        obtain ⟨p, hp, hsize, hanswer⟩ :=
          cached_answer source hc (Nat.le_of_lt hne) hend hcached
        have hlt := hshort location hcached
        rw [hanswer]
        refine ⟨?_, ?_⟩
        · intro p' hp' _
          have hpp : p' = p := by
            rcases Nat.lt_trichotomy p' p with h | h | h
            · exact absurd hp'.2.1 (hp.2.2 p' hp'.1 h)
            · exact h
            · exact absurd hp.2.1 (hp'.2.2 p hp.1 h)
          rw [hpp]
        · intro hnone
          exact absurd hp.2.1 (hnone p hp.1 (by omega))

omit [Target] in
/-- A string of two bytes, asked for once more on a range that reaches just beyond
    its delimiter. -/
theorem readBytesAtUntil_historyFree_two_bytes :
    let _ : Target := ⟨64⟩
    let F : Bytes := [104, 105, 0, 7, 0]
    let good : FileByteSource Unit := fun o s => .ok (slice F o (o + s))
    let first : CacheCall Unit := ⟨.readBytesAtUntil ⟨0, 5⟩ 0, good⟩
    HistoryFree (LayeredRangeMap Nat) F good ⟨0, 3⟩ 0
      ((readBytesAtUntil good ⟨0, 3⟩ 0).run
        (runCalls (new 5 : FileContentsWithChunkedCaching (LayeredRangeMap Nat)) [first])).1 := by
  intro _ F good first
  have hgood : Serves F good := fun _ _ _ => rfl
  have hfirst : (first.method.run
      (new 5 : FileContentsWithChunkedCaching (LayeredRangeMap Nat))).1 = .ok [104, 105] := by
    decide
  refine (readBytesAtUntil_historyFree_iff F (by decide) (by decide) [first] ?_ ?_ good hgood
    ⟨0, 3⟩ 0 (by decide) (by decide)).mpr ⟨by decide, ?_⟩
  · intro call hcall
    rw [List.mem_singleton.mp hcall]
    exact hgood.faithful
  · intro before call after hsplit site
    cases before with
    | nil =>
        obtain ⟨rfl, -⟩ := List.cons.inj hsplit
        show (first.method.run (new 5 : FileContentsWithChunkedCaching (LayeredRangeMap Nat))).1 ≠ _
        rw [hfirst]
        exact fun h => by cases h
    | cons head tail => simp at hsplit
  · intro location hcached
    have hkept : (runCalls (new 5 : FileContentsWithChunkedCaching (LayeredRangeMap Nat))
        [first]).stringCache.get? (0, 0) = some ⟨0, 0, 2⟩ := by decide
    have heq : some location = some ⟨0, 0, 2⟩ := hcached.symm.trans hkept
    rw [Option.some.inj heq]
    decide

omit [Target] in
/-- The same string, then asked for on a range that ends before its delimiter: a
    fresh object refuses, this one answers with both bytes. -/
theorem not_readBytesAtUntil_historyFree :
    ¬ ∀ (_ : Target) (F : Bytes) (calls : List (CacheCall Unit)) (source : FileByteSource Unit)
      (range : ByteRange) (delimiter : UInt8), 32 ≤ Target.usizeBits →
      F.length + 32767 < 2 ^ 64 → (∀ call ∈ calls, Serves F call.source) →
      Returned (new F.length : FileContentsWithChunkedCaching (LayeredRangeMap Nat)) calls →
      Serves F source → range.start < range.stop → range.stop ≤ F.length →
      HistoryFree (LayeredRangeMap Nat) F source range delimiter
        ((readBytesAtUntil source range delimiter).run
          (runCalls (new F.length : FileContentsWithChunkedCaching (LayeredRangeMap Nat))
            calls)).1 := by
  intro h
  let target : Target := ⟨64⟩
  let F : Bytes := [104, 105, 0]
  let good : FileByteSource Unit := fun o s => .ok (slice F o (o + s))
  let first : CacheCall Unit := ⟨.readBytesAtUntil ⟨0, 3⟩ 0, good⟩
  have hgood : Serves F good := fun _ _ _ => rfl
  have hfirst : (first.method.run
      (new 3 : FileContentsWithChunkedCaching (LayeredRangeMap Nat))).1 = .ok [104, 105] := by
    decide
  have hfree := h target F [first] good ⟨0, 1⟩ 0 (by decide) (by decide) ?_ ?_ hgood
    (by decide) (by decide)
  · -- the kept string is longer than the range in which the delimiter is searched
    have hanswer : ((readBytesAtUntil good ⟨0, 1⟩ 0).run
        (runCalls (new 3 : FileContentsWithChunkedCaching (LayeredRangeMap Nat)) [first])).1
        = .ok [104, 105] := by decide
    obtain ⟨e, herr⟩ := hfree.specified.notFound (by
      intro p _ hp
      have hzero : p = 0 := Nat.lt_one_iff.mp hp
      rw [hzero]
      decide)
    cases hanswer.symm.trans herr
  · intro call hcall
    rw [List.mem_singleton.mp hcall]
    exact hgood
  · intro before call after hsplit site
    cases before with
    | nil =>
        obtain ⟨rfl, -⟩ := List.cons.inj hsplit
        show (first.method.run (new 3 : FileContentsWithChunkedCaching (LayeredRangeMap Nat))).1 ≠ _
        rw [hfirst]
        exact fun h => by cases h
    | cons head tail => simp at hsplit

end ProfilerGetSymbols.Cache
