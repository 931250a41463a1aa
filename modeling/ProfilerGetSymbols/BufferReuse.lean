import ProfilerGetSymbols.ChunkedReadBufferManager

/-! # Buffer reuse — when a held range is read again

    The range map names one buffer for every offset, the newest.  An older
    buffer that reaches further stays allocated but is no longer found, so a
    range that only the older one contains is read once more.

    `Furthest` says that over every offset the newest buffer is also one that
    reaches furthest.  A read keeps it exactly when the end of the read lies
    strictly inside no buffer, and as soon as one read breaks it there is a
    range of two bytes that is held and would be read again. -/

namespace ProfilerGetSymbols.ChunkedReadBufferManager

open ProgLib

variable [Target] {M : Type} [RangeMap M Nat]

/-- One request, served as `get_range_location` does: the range to read becomes
    a buffer with a fresh handle. -/
def serve (chunkSize : Nat) (m : Manager M) (range : ByteRange) : Call Empty (Manager M) := do
  match ← determineRangeSourcing chunkSize m range with
  | .inExistingBuffer _ => return m
  | .needToReadNewBuffer readRange => insertBufferRange m readRange m.bufferRanges.length

/-- The manager after a sequence of requests. -/
def serveAll (chunkSize : Nat) (m : Manager M) (requests : List ByteRange) :
    Call Empty (Manager M) :=
  requests.foldlM (serve chunkSize) m

/-- The buffer holds the whole range. -/
def BufferRange.Contains (b : BufferRange) (range : ByteRange) : Prop :=
  b.range.start ≤ range.start ∧ range.stop ≤ b.range.stop

/-- The manager asks for a read only where no single buffer holds the range. -/
def NeverReadsAgain (chunkSize : Nat) (m : Manager M) : Prop :=
  ∀ range readRange, (determineRangeSourcing chunkSize m range : Call Empty RangeSourcing)
      = .ok (.needToReadNewBuffer readRange) →
    ∀ b ∈ m.bufferRanges, ¬ b.Contains range

/-- The newest buffer over the start of the range reaches its end. -/
def HeldByNewest (m : Manager M) (range : ByteRange) : Prop :=
  ∃ (i : Nat) (b : BufferRange), RangeMap.get m.rangeMap range.start = some i ∧
    m.bufferRanges[i]? = some b ∧ range.stop ≤ b.range.stop

/-- Where the last chunk that the range touches ends, inside the file. -/
def lastChunkEnd (chunkSize : Nat) (m : Manager M) (range : ByteRange) : Nat :=
  min (roundUpToMultiple range.stop chunkSize) m.fileLen

/-- The request is held, or its last chunk ends strictly inside no buffer. -/
def EndsInsideNoBuffer (chunkSize : Nat) (m : Manager M) (range : ByteRange) : Prop :=
  HeldByNewest m range ∨
    ∀ b ∈ m.bufferRanges, ¬ (b.range.start < lastChunkEnd chunkSize m range ∧
      lastChunkEnd chunkSize m range < b.range.stop)

/-! ## The two answers -/

/-- **THE ANSWERS, INVERTED**: what a successful call says about the range. -/
theorem determineRangeSourcing_eq_ok {ε : Type} {chunkSize : Nat} {m : Manager M}
    {range : ByteRange} {sourcing : RangeSourcing}
    (h : (determineRangeSourcing chunkSize m range : Call ε RangeSourcing) = .ok sourcing) :
    range.start < range.stop ∧ range.stop ≤ m.fileLen ∧
      ((HeldByNewest m range ∧ ∃ location, sourcing = .inExistingBuffer location) ∨
        (¬ HeldByNewest m range ∧ ∃ cached,
          sourcing = .needToReadNewBuffer (readRangeFor chunkSize m.fileLen cached range))) := by
  rw [determineRangeSourcing] at h
  obtain ⟨_, h1, h⟩ := Outcome.bind_eq_ok.mp h
  obtain ⟨_, h2, h⟩ := Outcome.bind_eq_ok.mp h
  refine ⟨Outcome.assert_eq_ok.mp h1, Outcome.assert_eq_ok.mp h2, ?_⟩
  cases hget : RangeMap.get m.rangeMap range.start with
  | none =>
      rw [hget] at h
      refine Or.inr ⟨?_, false, (Outcome.ok.inj h).symm⟩
      rintro ⟨i, b, hi, -⟩
      rw [hget] at hi
      cases hi
  | some i =>
      rw [hget] at h
      obtain ⟨b, hb, h⟩ := Outcome.bind_eq_ok.mp h
      rw [Outcome.unwrap_eq_ok] at hb
      -- the newest buffer over the start is the only one that is looked at
      by_cases hfits : range.stop ≤ b.range.stop
      · rw [if_pos hfits] at h
        exact Or.inl ⟨⟨i, b, hget, hb, hfits⟩, _, (Outcome.ok.inj h).symm⟩
      · rw [if_neg hfits] at h
        refine Or.inr ⟨?_, true, (Outcome.ok.inj h).symm⟩
        rintro ⟨i', b', hi', hb', hfits'⟩
        rw [hget, Option.some.injEq] at hi'
        rw [← hi', hb, Option.some.injEq] at hb'
        exact hfits (hb' ▸ hfits')

/-- **ONE REQUEST**: it is held and nothing changes, or it is not and the range
    around it is read. -/
theorem serve_cases {chunkSize : Nat} {m m' : Manager M} {range : ByteRange}
    (h : serve chunkSize m range = .ok m') :
    (HeldByNewest m range ∧ m' = m) ∨
      (¬ HeldByNewest m range ∧ ∃ readRange : ByteRange,
        readRange.stop = lastChunkEnd chunkSize m range ∧
        readRange.start < readRange.stop ∧ m' = withBuffer m readRange m.bufferRanges.length) := by
  rw [serve] at h
  obtain ⟨sourcing, hdet, h⟩ := Outcome.bind_eq_ok.mp h
  obtain ⟨-, -, ⟨hheld, location, rfl⟩ | ⟨hheld, cached, rfl⟩⟩ :=
    determineRangeSourcing_eq_ok hdet
  · exact Or.inl ⟨hheld, (Outcome.ok.inj h).symm⟩
  · refine Or.inr ⟨hheld, readRangeFor chunkSize m.fileLen cached range, rfl, ?_⟩
    obtain ⟨_, hlt, h⟩ := Outcome.bind_eq_ok.mp h
    exact ⟨Outcome.assert_eq_ok.mp hlt, (Outcome.ok.inj h).symm⟩

/-! ## The invariant -/

/-- **THE INVARIANT**: over every offset of a buffer the range map names one that
    reaches at least as far; and every buffer lies in the file. -/
structure Furthest (m : Manager M) : Prop where
  reaches : ∀ b ∈ m.bufferRanges, ∀ k, b.range.start ≤ k → k < b.range.stop →
    ∃ (i : Nat) (b' : BufferRange), RangeMap.get m.rangeMap k = some i ∧
      m.bufferRanges[i]? = some b' ∧ b.range.stop ≤ b'.range.stop

omit [Target] in
theorem furthest_newWithSize (fileLen : Nat) : Furthest (newWithSize fileLen : Manager M) where
  reaches := by
    intro b hb
    exact absurd hb (by simp [newWithSize])

/-- Where the newest buffers reach furthest, nothing held is read again. -/
theorem Furthest.neverReadsAgain {chunkSize : Nat} {m : Manager M} (h : Furthest m) :
    NeverReadsAgain chunkSize m := by
  intro range readRange hdet b hb hcontains
  obtain ⟨hne, -, ⟨-, location, heq⟩ | ⟨hheld, -⟩⟩ := determineRangeSourcing_eq_ok hdet
  · cases heq
  · obtain ⟨i, b', hget, hb', hfar⟩ :=
      h.reaches b hb range.start hcontains.1 (Nat.lt_of_lt_of_le hne hcontains.2)
    exact hheld ⟨i, b', hget, hb', Nat.le_trans hcontains.2 hfar⟩

omit [Target] in
/-- A read that ends strictly inside no buffer keeps the invariant. -/
theorem Furthest.withBuffer [LawfulRangeMap M] {m : Manager M} (h : Furthest m) (handle : Nat)
    {readRange : ByteRange} (hend : ∀ b ∈ m.bufferRanges,
      ¬ (b.range.start < readRange.stop ∧ readRange.stop < b.range.stop)) :
    Furthest (withBuffer m readRange handle) where
  reaches := by
    intro b hb k hlo hhi
    by_cases hk : readRange.start ≤ k ∧ k < readRange.stop
    · -- the new buffer covers `k`, and no older one over `k` reaches further
      refine ⟨_, _, LawfulRangeMap.get_insert_inside _ _ _ _ _ hk.1 hk.2,
        getElem?_withBuffer_length m readRange handle, ?_⟩
      rcases List.mem_append.mp hb with hold | hlast
      · have := hend b hold
        show b.range.stop ≤ readRange.stop
        omega
      · rw [List.mem_singleton.mp hlast]
    · have hget : RangeMap.get (ChunkedReadBufferManager.withBuffer m readRange handle).rangeMap k
          = RangeMap.get m.rangeMap k := LawfulRangeMap.get_insert_outside _ _ _ _ _ hk
      rcases List.mem_append.mp hb with hold | hlast
      · obtain ⟨i, b', hi, hb', hfar⟩ := h.reaches b hold k hlo hhi
        exact ⟨i, b', hget.trans hi, getElem?_withBuffer_of_some hb', hfar⟩
      · rw [List.mem_singleton.mp hlast] at hlo hhi
        exact absurd ⟨hlo, hhi⟩ hk

/-- Every buffer lies inside the file. -/
def InFile (m : Manager M) : Prop := ∀ b ∈ m.bufferRanges, b.range.stop ≤ m.fileLen

/-- One request keeps the file's length and its buffers inside it. -/
theorem InFile.serve {chunkSize : Nat} {m m' : Manager M} {range : ByteRange} (h : InFile m)
    (hserve : serve chunkSize m range = .ok m') : InFile m' := by
  rcases serve_cases hserve with ⟨-, rfl⟩ | ⟨-, readRange, hstop, -, rfl⟩
  · exact h
  · intro b hb
    rcases List.mem_append.mp hb with hold | hlast
    · exact h b hold
    · rw [List.mem_singleton.mp hlast]
      show readRange.stop ≤ m.fileLen
      rw [hstop]
      exact Nat.min_le_right _ _

/-- **THE STEP**: a request whose last chunk ends strictly inside no buffer keeps
    the invariant. -/
theorem Furthest.serve [LawfulRangeMap M] {chunkSize : Nat} {m m' : Manager M}
    {range : ByteRange} (h : Furthest m) (hserve : serve chunkSize m range = .ok m')
    (hend : EndsInsideNoBuffer chunkSize m range) : Furthest m' := by
  rcases serve_cases hserve with ⟨-, rfl⟩ | ⟨hheld, readRange, hstop, -, rfl⟩
  · exact h
  · refine h.withBuffer m.bufferRanges.length ?_
    rw [hstop]
    exact hend.resolve_left hheld

/-- A read that ends strictly inside a buffer leaves a held range that would be
    read again: the two bytes around its end. -/
theorem not_neverReadsAgain_of_serve [LawfulRangeMap M] {chunkSize : Nat} {m m' : Manager M}
    {range : ByteRange} (hfile : InFile m) (hserve : serve chunkSize m range = .ok m')
    (hend : ¬ EndsInsideNoBuffer chunkSize m range) : ¬ NeverReadsAgain chunkSize m' := by
  rw [EndsInsideNoBuffer, not_or] at hend
  obtain ⟨hheld, hinside⟩ := hend
  rcases serve_cases hserve with ⟨hheld', -⟩ | ⟨-, readRange, hstop, hne, rfl⟩
  · exact absurd hheld' hheld
  rw [← hstop] at hinside
  push Not at hinside
  obtain ⟨b, hb, hlo, hhi⟩ := hinside
  intro hnever
  have hbend : b.range.stop ≤ m.fileLen := hfile b hb
  -- the new buffer is the newest over the last byte of the read and ends right after it
  have hget : RangeMap.get (withBuffer m readRange m.bufferRanges.length).rangeMap (readRange.stop - 1)
      = some m.bufferRanges.length :=
    LawfulRangeMap.get_insert_inside _ _ _ _ _ (by omega) (by omega)
  have hnew := getElem?_withBuffer_length m readRange m.bufferRanges.length
  have hdet : (determineRangeSourcing chunkSize (withBuffer m readRange m.bufferRanges.length)
      ⟨readRange.stop - 1, readRange.stop + 1⟩ : Call Empty RangeSourcing)
      = .ok (.needToReadNewBuffer (readRangeFor chunkSize m.fileLen true
          ⟨readRange.stop - 1, readRange.stop + 1⟩)) := by
    have h1 : (Outcome.assert .emptyRange (readRange.stop - 1 < readRange.stop + 1)
        : Call Empty Unit) = .ok () := if_pos (by omega)
    have h2 : (Outcome.assert .rangeBeyondFile (readRange.stop + 1 ≤ m.fileLen)
        : Call Empty Unit) = .ok () := if_pos (by omega)
    rw [determineRangeSourcing]
    simp only [h1, Outcome.ok_bind, hget, hnew, Outcome.unwrap]
    rw [show (withBuffer m readRange m.bufferRanges.length).fileLen = m.fileLen from rfl, h2, Outcome.ok_bind,
      if_neg (by omega)]
    rfl
  refine hnever _ _ hdet b (List.mem_append_left _ hb) ⟨?_, ?_⟩
  · show b.range.start ≤ readRange.stop - 1
    omega
  · exact hhi

/-! ## Runs -/

/-- A run from a fresh manager reaches the state after some of its requests. -/
def ReachedBy (chunkSize fileLen : Nat) (before : List ByteRange) (m : Manager M) : Prop :=
  serveAll chunkSize (newWithSize fileLen) before = .ok m

/-- In every state of the run the manager asks only for ranges that no single
    buffer holds. -/
def NeverReadsAgainAlong (M : Type) [RangeMap M Nat] (chunkSize fileLen : Nat)
    (requests : List ByteRange) : Prop :=
  ∀ before, before <+: requests → ∀ m : Manager M, ReachedBy chunkSize fileLen before m →
    NeverReadsAgain chunkSize m

/-- Every request that the run serves is held, or its last chunk ends strictly
    inside no buffer read so far. -/
def EveryReadReachesFar (M : Type) [RangeMap M Nat] (chunkSize fileLen : Nat)
    (requests : List ByteRange) : Prop :=
  ∀ before range, before ++ [range] <+: requests → ∀ m m' : Manager M,
    ReachedBy chunkSize fileLen before m → serve chunkSize m range = .ok m' →
    EndsInsideNoBuffer chunkSize m range

/-- A run of one request more. -/
theorem reachedBy_append {chunkSize fileLen : Nat} {before : List ByteRange} {range : ByteRange}
    {m' : Manager M} :
    ReachedBy chunkSize fileLen (before ++ [range]) m' ↔
      ∃ m, ReachedBy chunkSize fileLen before m ∧ serve chunkSize m range = .ok m' := by
  rw [ReachedBy, serveAll, List.foldlM_append, Outcome.bind_eq_ok]
  refine exists_congr (fun m => and_congr Iff.rfl ?_)
  rw [List.foldlM_cons, Outcome.bind_eq_ok]
  constructor
  · rintro ⟨a, ha, h⟩
    rwa [← Outcome.ok.inj h]
  · intro h
    exact ⟨m', h, rfl⟩

/-- The buffers of every reached state lie in the file. -/
theorem inFile_of_reachedBy {chunkSize fileLen : Nat} {before : List ByteRange} {m : Manager M}
    (h : ReachedBy chunkSize fileLen before m) : InFile m := by
  induction before using List.reverseRecOn generalizing m with
  | nil =>
      rw [← Outcome.ok.inj h]
      intro b hb
      exact absurd hb (by simp [newWithSize])
  | append_singleton before range ih =>
      obtain ⟨m₀, h₀, hserve⟩ := reachedBy_append.mp h
      exact (ih h₀).serve hserve

/-- Where every read reaches far, so do the newest buffers of every reached state. -/
theorem furthest_of_reachedBy [LawfulRangeMap M] {chunkSize fileLen : Nat}
    {requests before : List ByteRange} {m : Manager M}
    (hfar : EveryReadReachesFar M chunkSize fileLen requests) (hpre : before <+: requests)
    (h : ReachedBy chunkSize fileLen before m) : Furthest m := by
  induction before using List.reverseRecOn generalizing m with
  | nil =>
      rw [← Outcome.ok.inj h]
      exact furthest_newWithSize fileLen
  | append_singleton before range ih =>
      obtain ⟨m₀, h₀, hserve⟩ := reachedBy_append.mp h
      have hpre₀ : before <+: requests := (List.prefix_append before [range]).trans hpre
      exact (ih hpre₀ h₀).serve hserve (hfar before range hpre m₀ m h₀ hserve)

/-- **READING AGAIN**: along a run nothing held is read again if and only if every
    read ends strictly inside no buffer read before it. -/
theorem neverReadsAgainAlong_iff [LawfulRangeMap M] (chunkSize fileLen : Nat)
    (requests : List ByteRange) :
    NeverReadsAgainAlong M chunkSize fileLen requests ↔
      EveryReadReachesFar M chunkSize fileLen requests := by
  constructor
  · intro hnever before range hpre m m' h hserve
    by_contra hend
    refine not_neverReadsAgain_of_serve (inFile_of_reachedBy h) hserve hend ?_
    exact hnever (before ++ [range]) hpre m' (reachedBy_append.mpr ⟨m, h, hserve⟩)
  · intro hfar before hpre m h
    exact (furthest_of_reachedBy hfar hpre h).neverReadsAgain

omit [Target] in
/-- A range that the newest buffer holds is served from it. -/
theorem neverReadsAgainAlong_iff_two_requests :
    @NeverReadsAgainAlong ⟨64⟩ (LayeredRangeMap Nat) _ 10 100 [⟨35, 55⟩, ⟨40, 50⟩] := by
  let target : Target := ⟨64⟩
  let m₁ : Manager (LayeredRangeMap Nat) := ⟨100, [⟨⟨30, 60⟩, 0⟩], ⟨[(30, 60, 0)]⟩⟩
  refine (neverReadsAgainAlong_iff 10 100 _).mpr ?_
  intro before range hpre m m' h _
  match before with
  | [] =>
      rw [← Outcome.ok.inj h]
      exact Or.inr (fun b hb => by cases hb)
  | [first] =>
      have hfirst : first = ⟨35, 55⟩ := (List.cons_prefix_cons.mp hpre).1
      have hsecond : range = ⟨40, 50⟩ :=
        (List.cons_prefix_cons.mp (List.cons_prefix_cons.mp hpre).2).1
      subst hfirst hsecond
      have hreached : ReachedBy 10 100 [⟨35, 55⟩] m₁ := rfl
      obtain rfl : m₁ = m := Outcome.ok.inj (hreached.symm.trans h)
      exact Or.inl ⟨0, ⟨⟨30, 60⟩, 0⟩, rfl, rfl, by decide⟩
  | _ :: _ :: rest =>
      have hlength := hpre.length_le
      rw [List.length_append, List.length_cons, List.length_cons, List.length_singleton,
        List.length_cons, List.length_singleton] at hlength
      omega

omit [Target] in
/-- A short read over the front of a long buffer hides the rest of it: chunks of
    ten bytes, requests `35..55`, `25..32` and `35..55` again. -/
theorem not_neverReadsAgainAlong_straddled :
    ¬ ∀ (_ : Target) (chunkSize fileLen : Nat) (requests : List ByteRange), 0 < chunkSize →
      NeverReadsAgainAlong (LayeredRangeMap Nat) chunkSize fileLen requests := by
  intro h
  let target : Target := ⟨64⟩
  let m : Manager (LayeredRangeMap Nat) :=
    ⟨100, [⟨⟨30, 60⟩, 0⟩, ⟨⟨20, 40⟩, 1⟩], ⟨[(20, 40, 1), (30, 60, 0)]⟩⟩
  have hreached : ReachedBy 10 100 [⟨35, 55⟩, ⟨25, 32⟩] m := rfl
  have hdet : (determineRangeSourcing 10 m ⟨35, 55⟩ : Call Empty RangeSourcing)
      = .ok (.needToReadNewBuffer ⟨35, 60⟩) := rfl
  refine h target 10 100 [⟨35, 55⟩, ⟨25, 32⟩] (by decide) _ (List.prefix_refl _) m hreached
    ⟨35, 55⟩ ⟨35, 60⟩ hdet ⟨⟨30, 60⟩, 0⟩ (List.mem_cons_self ..) ⟨?_, ?_⟩
  · show 30 ≤ 35
    decide
  · show 55 ≤ 60
    decide

end ProfilerGetSymbols.ChunkedReadBufferManager
