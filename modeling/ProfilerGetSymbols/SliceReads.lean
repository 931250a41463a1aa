import ProfilerGetSymbols.CacheHistory

/-! # Cached and plain reads — when two `FileContents` accept the same

    A byte slice checks a read with `usize` casts and two slice lookups, the
    chunked cache with `u64` sums, after answering every empty read at once.  The
    two part where an empty read starts behind the file, and, on a machine whose
    `usize` is shorter than a `u64`, where the casts bring a read that lies outside
    the file back inside. -/

namespace ProfilerGetSymbols.Cache

open ProgLib ChunkedReadBufferManager

variable [Target] {M : Type} [RangeMap M Nat] {E : Type}

/-- An empty read starts inside the file as the machine sees it; any other read that
    the machine sees inside the file is inside the file. -/
def SeenAsItIs (F : Bytes) (offset size : Nat) : Prop :=
  if size = 0 then asUsize offset ≤ F.length
  else asUsize offset + asUsize size ≤ F.length → offset + size ≤ F.length

/-! ## The slice -/

/-- A slice answers what the machine sees inside the file. -/
theorem sliceReadBytesAt_inside {F : Bytes} {offset size : Nat}
    (h : asUsize offset + asUsize size ≤ F.length) :
    sliceReadBytesAt F offset size
      = .ok (slice F (asUsize offset) (asUsize offset + asUsize size)) := by
  have hinside : asUsize offset ≤ F.length ∧ asUsize size ≤ F.length - asUsize offset := by omega
  exact if_pos hinside

theorem sliceReadBytesAt_outside {F : Bytes} {offset size : Nat}
    (h : F.length < asUsize offset + asUsize size) :
    ∃ e, sliceReadBytesAt F offset size = .error e := by
  have houtside : ¬ (asUsize offset ≤ F.length ∧ asUsize size ≤ F.length - asUsize offset) := by
    omega
  exact ⟨_, if_neg houtside⟩

/-! ## The cache after any calls -/

section Cached

variable [LawfulRangeMap M] {F : Bytes} {c : FileContentsWithChunkedCaching M}
  {source : FileByteSource E}

omit [LawfulRangeMap M] in
/-- An empty range is refused, answered from the string cache, or panics in the
    manager, before anything is changed. -/
theorem readBytesAtUntil_empty (hc : Coherent F c) (source : FileByteSource E) {range : ByteRange}
    (delimiter : UInt8) (hF64 : F.length < 2 ^ 64) (hempty : range.stop ≤ range.start) :
    ((readBytesAtUntil source range delimiter).run c).2 = c := by
  unfold readBytesAtUntil
  rw [Stateful.run_bind, Stateful.run_get]
  by_cases hinverted : range.stop < range.start
  · simp only [if_pos hinverted, Stateful.run_lift]
  simp only [if_neg hinverted]
  by_cases hend : c.fileLen < range.stop
  · simp only [if_pos hend, Stateful.run_lift]
  simp only [if_neg hend]
  rw [hc.fileLen] at hend
  cases c.stringCache.get? (range.start, delimiter) with
  | some location => simp only [Stateful.run_lift]
  | none =>
      have hzero : min (range.stop - range.start) maxLengthIncludingDelimiter = 0 := by
        rw [Nat.sub_eq_zero_of_le hempty, Nat.zero_min]
      have hassert : (Outcome.assert .emptyRange (range.start < range.start + 0)
          : Call (CacheError E) Unit) = .panic .emptyRange := if_neg (Nat.lt_irrefl _)
      have hpanic : (getRangeLocation source ⟨range.start, range.start + 0⟩).run c
          = (.panic .emptyRange, c) := by
        unfold getRangeLocation
        simp only [Stateful.run_bind, Stateful.run_get, Stateful.run_lift,
          determineRangeSourcing, hassert, Outcome.panic_bind]
      simp only [hzero, u64Add_of_lt (show range.start + 0 < 2 ^ 64 by omega), Stateful.run_bind,
        hpanic]

/-- Any call keeps the invariant, those on an empty range included. -/
theorem coherent_call (hn : F.length + 32767 < 2 ^ 64) (hc : Coherent F c) {call : CacheCall E}
    (hsource : FaithfulTo F call.source) : Coherent F (call.method.run c).2 := by
  by_cases hne : call.request.NonEmpty
  · exact (call_sound hn hc hsource hne).1
  obtain ⟨request, source⟩ := call
  cases request with
  | readBytesAt offset size => exact absurd trivial hne
  | readBytesAtUntil range delimiter =>
      have hsame : ((readBytesAtUntil source range delimiter).run c).2 = c :=
        readBytesAtUntil_empty hc source delimiter (by omega) (Nat.le_of_not_lt hne)
      exact hsame.symm ▸ hc

theorem coherent_calls (hn : F.length + 32767 < 2 ^ 64) (hc : Coherent F c)
    {calls : List (CacheCall E)} (hcalls : ∀ call ∈ calls, FaithfulTo F call.source) :
    Coherent F (runCalls c calls) := by
  induction calls generalizing c with
  | nil => exact hc
  | cons call rest ih =>
      exact ih (coherent_call hn hc (hcalls call (List.mem_cons_self ..)))
        (fun call' h => hcalls call' (List.mem_cons_of_mem _ h))

/-- A read that is not empty and lies inside the file. -/
theorem readBytesAt_inside (hn : F.length + 32767 < 2 ^ 64) (hF : F.length < 2 ^ Target.usizeBits)
    (hc : Coherent F c) (hsource : Serves F source) {offset size : Nat} (hsize : size ≠ 0)
    (hend : offset + size ≤ F.length) :
    ((readBytesAt source offset size).run c).1 = .ok (slice F offset (offset + size)) := by
  -- what is read lies inside the file, so it is no longer than the file
  have hwidth : ∀ cached, (readRangeFor chunkSize F.length cached ⟨offset, offset + size⟩).stop
      - (readRangeFor chunkSize F.length cached ⟨offset, offset + size⟩).start
        < 2 ^ Target.usizeBits := by
    intro cached
    have hstop : (readRangeFor chunkSize F.length cached ⟨offset, offset + size⟩).stop
        ≤ F.length := Nat.min_le_right _ _
    omega
  obtain ⟨location, c', hrun, hholds⟩ := getRangeLocation_found (by omega) hc hsource
    ⟨offset, offset + size⟩ (show offset + size + 32767 < 2 ^ 64 by omega)
    (show offset < offset + size by omega) hend hwidth
  unfold readBytesAt
  rw [if_neg hsize, Stateful.run_bind, Stateful.run_get]
  simp only [if_neg (show ¬ 2 ^ 64 ≤ offset + size by omega),
    if_neg (show ¬ c.fileLen < offset + size by rw [hc.fileLen]; omega), Stateful.run_bind, hrun,
    Stateful.run_get, Stateful.run_lift, sliceFromLocation_of_holds hholds]

omit [LawfulRangeMap M] in
/-- A read that is not empty and reaches behind the file. -/
theorem readBytesAt_outside (hc : Coherent F c) (source : FileByteSource E) {offset size : Nat}
    (hsize : size ≠ 0) (hend : F.length < offset + size) :
    ∃ e, ((readBytesAt source offset size).run c).1 = .err e := by
  unfold readBytesAt
  rw [if_neg hsize, Stateful.run_bind, Stateful.run_get]
  by_cases hoverflow : 2 ^ 64 ≤ offset + size
  · simp only [if_pos hoverflow, Stateful.run_lift]
    exact ⟨_, rfl⟩
  · have hbeyond : c.fileLen < offset + size := by
      rw [hc.fileLen]
      exact hend
    simp only [if_neg hoverflow, if_pos hbeyond, Stateful.run_lift]
    exact ⟨_, rfl⟩

end Cached

/-! ## Both -/

/-- With nothing to read, the cache answers at once. -/
theorem readBytesAt_empty (source : FileByteSource E) (offset : Nat)
    (c : FileContentsWithChunkedCaching M) :
    ((readBytesAt source offset 0).run c).1 = .ok [] := by
  rw [readBytesAt, if_pos rfl]
  rfl

/-- **TWO IMPLEMENTATIONS**: after any calls, a read is answered the same by the
    cache and by the slice if and only if the machine sees it as it is. -/
theorem readBytesAt_sameAnswer_iff [LawfulRangeMap M] (F : Bytes)
    (hF : F.length < 2 ^ Target.usizeBits) (hslice : F.length < 2 ^ 63)
    (calls : List (CacheCall E)) (hcalls : ∀ call ∈ calls, Serves F call.source)
    (source : FileByteSource E) (hsource : Serves F source) (offset size : Nat) :
    SameAnswer
        ((readBytesAt source offset size).run
          (runCalls (new F.length : FileContentsWithChunkedCaching M) calls)).1
        (Outcome.ofExcept ((FileContents.ofBytes F).readBytesAt offset size)
          : Call String Bytes) ↔
      SeenAsItIs F offset size := by
  have hn : F.length + 32767 < 2 ^ 64 := by omega
  have hc := coherent_calls hn (coherent_new (M := M) F) (fun call h => (hcalls call h).faithful)
  generalize runCalls (new F.length : FileContentsWithChunkedCaching M) calls = c at hc ⊢
  show SameAnswer _ (Outcome.ofExcept (sliceReadBytesAt F offset size) : Call String Bytes) ↔ _
  unfold SeenAsItIs
  by_cases hsize : size = 0
  · -- the cache answers an empty read without looking, the slice checks the offset
    subst hsize
    have hzero : asUsize 0 = 0 := Nat.zero_mod _
    rw [if_pos rfl, readBytesAt_empty]
    by_cases hinside : asUsize offset ≤ F.length
    · rw [sliceReadBytesAt_inside (by omega), hzero]
      have hnone : slice F (asUsize offset) (asUsize offset + 0) = [] := by simp [slice]
      exact ⟨fun _ => hinside, fun _ => hnone.symm⟩
    · have houtside : F.length < asUsize offset + asUsize 0 := by omega
      obtain ⟨e, he⟩ := sliceReadBytesAt_outside houtside
      rw [he]
      exact ⟨fun h => h.elim, fun h => absurd h hinside⟩
  rw [if_neg hsize]
  by_cases hend : offset + size ≤ F.length
  · -- inside the file the casts change nothing
    have hoffset : asUsize offset = offset := asUsize_of_lt (by omega)
    have hlen : asUsize size = size := asUsize_of_lt (by omega)
    rw [readBytesAt_inside hn hF hc hsource hsize hend,
      sliceReadBytesAt_inside (by rw [hoffset, hlen]; exact hend), hoffset, hlen]
    exact ⟨fun _ _ => hend, fun _ => rfl⟩
  · obtain ⟨e, he⟩ := readBytesAt_outside hc source hsize (Nat.lt_of_not_le hend)
    rw [he]
    by_cases hseen : asUsize offset + asUsize size ≤ F.length
    · rw [sliceReadBytesAt_inside hseen]
      exact ⟨fun h => h.elim, fun h => absurd (h hseen) hend⟩
    · obtain ⟨e', he'⟩ := sliceReadBytesAt_outside (Nat.lt_of_not_le hseen)
      rw [he']
      exact ⟨fun _ h => absurd h hseen, fun _ => trivial⟩

omit [Target] in
/-- A read of the second byte, after one of the first. -/
theorem readBytesAt_sameAnswer_two_bytes :
    let _ : Target := ⟨64⟩
    let F : Bytes := [104, 105]
    let good : FileByteSource Unit := fun o s => .ok (slice F o (o + s))
    let first : CacheCall Unit := ⟨.readBytesAt 0 1, good⟩
    SameAnswer
      ((readBytesAt good 1 1).run
        (runCalls (new 2 : FileContentsWithChunkedCaching (LayeredRangeMap Nat)) [first])).1
      (Outcome.ofExcept ((FileContents.ofBytes F).readBytesAt 1 1) : Call String Bytes) := by
  intro _ F good first
  have hgood : Serves F good := fun _ _ _ => rfl
  refine (readBytesAt_sameAnswer_iff F (by decide) (by decide) [first] ?_ good hgood 1 1).mpr ?_
  · intro call hcall
    rw [List.mem_singleton.mp hcall]
    exact hgood
  · show asUsize 1 + asUsize 1 ≤ 2 → 1 + 1 ≤ 2
    exact fun _ => Nat.le_refl 2

omit [Target] in
/-- One byte.  An empty read at offset 2 is answered by the cache and refused by the
    slice; with a `usize` of 32 bits a read at `2 ^ 32` is refused by the cache, and
    the slice answers with the byte at 0. -/
theorem not_readBytesAt_sameAnswer :
    let F : Bytes := [104]
    let good : FileByteSource Unit := fun o s => .ok (slice F o (o + s))
    (∀ _ : Target, Target.usizeBits = 64 → ¬ SameAnswer
      ((readBytesAt good 2 0).run (new 1 : FileContentsWithChunkedCaching (LayeredRangeMap Nat))).1
      (Outcome.ofExcept ((FileContents.ofBytes F).readBytesAt 2 0) : Call String Bytes)) ∧
    (∀ _ : Target, Target.usizeBits = 32 → ¬ SameAnswer
      ((readBytesAt good (2 ^ 32) 1).run
        (new 1 : FileContentsWithChunkedCaching (LayeredRangeMap Nat))).1
      (Outcome.ofExcept ((FileContents.ofBytes F).readBytesAt (2 ^ 32) 1)
        : Call String Bytes)) := by
  intro F good
  refine ⟨?_, ?_⟩
  · rintro ⟨bits⟩ rfl h
    exact h
  · rintro ⟨bits⟩ rfl h
    exact h

/-- Where `usize` holds every `u64`, only empty reads behind the file are told apart. -/
theorem seenAsItIs_iff_of_usize_u64 (hbits : 64 ≤ Target.usizeBits) (F : Bytes)
    {offset size : Nat} (hoffset : offset < 2 ^ 64) (hsize : size < 2 ^ 64) :
    SeenAsItIs F offset size ↔ size ≠ 0 ∨ offset ≤ F.length := by
  have hpow : 2 ^ 64 ≤ 2 ^ Target.usizeBits := Nat.pow_le_pow_right (by decide) hbits
  unfold SeenAsItIs
  rw [asUsize_of_lt (show offset < 2 ^ Target.usizeBits by omega),
    asUsize_of_lt (show size < 2 ^ Target.usizeBits by omega)]
  by_cases hzero : size = 0
  · rw [if_pos hzero]
    exact ⟨Or.inr, fun h => h.resolve_left (fun hne => hne hzero)⟩
  · rw [if_neg hzero]
    exact ⟨fun _ => Or.inl hzero, fun _ h => h⟩

end ProfilerGetSymbols.Cache
