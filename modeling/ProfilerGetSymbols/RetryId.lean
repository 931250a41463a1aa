import ProfilerGetSymbols.Refusals

/-! # A symbol table without a debug ID

    A query needs a debug ID.  Where `dump_table` is given none, it asks for the
    nil ID first, and if a file refuses that one, it asks again for the ID that
    the file says it has.

    Which file that is, is a matter of the order of the candidates: the error of
    a query is that of the last one. -/

namespace ProfilerGetSymbols

open ProgLib Paths

/-- `DebugId::nil`. -/
def DebugId.nil : DebugId := ⟨List.replicate 16 0, 0⟩

namespace Candidates

section Retry

variable [Crates] [Platform] [Target]

/-- What the outside answers in one call. -/
structure Round where
  helper : FileAndPathHelper
  outsides : Nat → Outside

/-- The table for a debug ID, in one call. -/
def Round.table (round : Round) (fuel : Nat) (debugName : String) (debugId : DebugId) :
    Call GetSymbolsError CompactSymbolTable :=
  getCompactSymbolTable round.helper round.outsides fuel debugName debugId

/-- `get_symbols_retry_id`; the outside may be another one in the second call. -/
def getSymbolsRetryId (rounds : Nat → Round) (fuel : Nat) (debugName : String) :
    Option DebugId → Call GetSymbolsError CompactSymbolTable
  | some debugId => (rounds 0).table fuel debugName debugId
  | none => do
      match ← ((rounds 0).table fuel debugName .nil).attempt with
      | .ok table => return table
      | .error (.unmatchedDebugId expected supplied) =>
          if supplied = .nil then (rounds 1).table fuel debugName expected
          else .err (.unmatchedDebugId expected supplied)
      | .error err => .err err

/-! ## The last candidate decides -/

variable {fuel : Nat} {query : SymbolicationQuery} {err : GetSymbolsError} {debugName : String}
  {debugId expected supplied : DebugId}

/-- If all attempts fail, the error is that of the last one. -/
theorem tryCandidates_eq_err_cases {outsides : Nat → Outside} {candidates : List CandidatePathInfo}
    {lastErr : Option GetSymbolsError}
    (h : tryCandidates CompactSymbolTable fuel query outsides candidates lastErr = .err err) :
    (candidates = [] ∧
      err = lastErr.getD (.noCandidatePathForBinary query.debugName query.debugId)) ∨
    ∃ before last, candidates = before ++ [last] ∧
      (∀ i earlier, before[i]? = some earlier →
        ∃ e, tryCandidate CompactSymbolTable (outsides i) fuel query earlier = .err e) ∧
      tryCandidate CompactSymbolTable (outsides before.length) fuel query last = .err err := by
  induction candidates generalizing outsides lastErr with
  | nil =>
      left
      rw [tryCandidates] at h
      cases h
      exact ⟨rfl, rfl⟩
  | cons candidate candidates ih =>
      right
      rw [tryCandidates] at h
      rcases Outcome.bind_eq_err.mp h with hattempt | ⟨answer, hanswer, h⟩
      · exact absurd hattempt Outcome.attempt_ne_err
      · cases answer with
        | ok table => cases h
        | error e =>
            have hfailed := Outcome.attempt_eq_ok_error.mp hanswer
            -- the last error stands for all: it is the next one's, or there is none next
            rcases ih h with ⟨rfl, rfl⟩ | ⟨before, last, rfl, hearlier, hlast⟩
            · exact ⟨[], candidate, rfl, by simp, hfailed⟩
            · refine ⟨candidate :: before, last, rfl, ?_, hlast⟩
              intro i earlier hi
              cases i with
              | zero =>
                  obtain rfl : candidate = earlier := Option.some.inj hi
                  exact ⟨e, hfailed⟩
              | succ i => exact hearlier i earlier hi

theorem tryCandidates_snoc_eq_err {outsides : Nat → Outside} {before : List CandidatePathInfo}
    {last : CandidatePathInfo} {lastErr : Option GetSymbolsError}
    (hearlier : ∀ i earlier, before[i]? = some earlier →
      ∃ e, tryCandidate CompactSymbolTable (outsides i) fuel query earlier = .err e)
    (hlast : tryCandidate CompactSymbolTable (outsides before.length) fuel query last
      = .err err) :
    tryCandidates CompactSymbolTable fuel query outsides (before ++ [last]) lastErr
      = .err err := by
  induction before generalizing outsides lastErr with
  | nil =>
      have hlast : tryCandidate CompactSymbolTable (outsides 0) fuel query last = .err err := hlast
      rw [List.nil_append, tryCandidates, hlast]
      rfl
  | cons candidate before ih =>
      obtain ⟨e, he⟩ := hearlier 0 candidate rfl
      rw [List.cons_append, tryCandidates, he]
      exact ih (fun i earlier hi => hearlier (i + 1) earlier hi) hlast

/-- Every attempt fails, and the last one because the source that it checks has this
    debug ID instead. -/
def Refused (round : Round) (fuel : Nat) (debugName : String) (debugId expected : DebugId) :
    Prop :=
  ∃ before last source,
    round.helper.getCandidatePathsForBinaryOrPdb debugName debugId = .ok (before ++ [last]) ∧
    (∀ i earlier, before[i]? = some earlier → ∃ e, tryCandidate CompactSymbolTable
      (round.outsides i) fuel ⟨debugName, debugId, .allSymbols⟩ earlier = .err e) ∧
    Checks (round.outsides before.length) fuel ⟨debugName, debugId, .allSymbols⟩ last source ∧
    source.debugId = some expected ∧ expected ≠ debugId

/-- A query is refused exactly if its last attempt is. -/
theorem Round.table_eq_unmatched {round : Round} :
    round.table fuel debugName debugId = .err (.unmatchedDebugId expected supplied) ↔
      supplied = debugId ∧ Refused round fuel debugName debugId expected := by
  rw [Round.table, getCompactSymbolTable, getSymbolicationResult]
  constructor
  · intro h
    rcases Outcome.bind_eq_err.mp h with hcandidates | ⟨candidates, hcandidates, h⟩
    · obtain ⟨e, -, he⟩ := Outcome.ofExcept_mapError_eq_err.mp hcandidates
      cases he
    · rcases tryCandidates_eq_err_cases h with ⟨-, he⟩ | ⟨before, last, rfl, hearlier, hlast⟩
      · cases he
      · obtain ⟨source, hchecks, expected', hid, hne, he⟩ :=
          (tryCandidate_eq_unmatched rfl).mp hlast
        cases he
        exact ⟨rfl, before, last, source, Outcome.ofExcept_mapError_eq_ok.mp hcandidates, hearlier,
          hchecks, hid, hne⟩
  · rintro ⟨rfl, before, last, source, hcandidates, hearlier, hchecks, hid, hne⟩
    refine Outcome.bind_eq_err.mpr (Or.inr ⟨before ++ [last],
      Outcome.ofExcept_mapError_eq_ok.mpr hcandidates, ?_⟩)
    have hlast : tryCandidate CompactSymbolTable (round.outsides before.length) fuel
        ⟨debugName, supplied, .allSymbols⟩ last = .err (.unmatchedDebugId expected supplied) :=
      (tryCandidate_eq_unmatched rfl).mpr ⟨source, hchecks, expected, hid, hne, rfl⟩
    exact tryCandidates_snoc_eq_err hearlier hlast

/-! ## The second call -/

/-- No table was found for the nil ID, but a debug ID to ask for. -/
theorem getSymbolsRetryId_of_refused {rounds : Nat → Round}
    (h : Refused (rounds 0) fuel debugName .nil expected) :
    getSymbolsRetryId rounds fuel debugName none = (rounds 1).table fuel debugName expected := by
  rw [getSymbolsRetryId, Round.table_eq_unmatched.mpr ⟨rfl, h⟩]
  show (if DebugId.nil = DebugId.nil then (rounds 1).table fuel debugName expected
    else .err (.unmatchedDebugId expected .nil)) = _
  rw [if_pos rfl]

/-- Otherwise the first call is the only one. -/
theorem getSymbolsRetryId_of_not_refused {rounds : Nat → Round}
    (h : ∀ expected, ¬ Refused (rounds 0) fuel debugName .nil expected) :
    getSymbolsRetryId rounds fuel debugName none = (rounds 0).table fuel debugName .nil := by
  rw [getSymbolsRetryId]
  cases hfirst : (rounds 0).table fuel debugName .nil with
  | ok table => rfl
  | panic site => rfl
  | unfinished => rfl
  | err err =>
      cases err with
      | unmatchedDebugId expected supplied =>
          exact absurd (Round.table_eq_unmatched.mp hfirst).2 (h expected)
      | _ => rfl

/-- **A TABLE WITHOUT A DEBUG ID**: a refusal of the nil ID, and nothing else, makes for a
    second call, for the debug ID of the file that the last attempt checked; the outside
    may have changed by then.  A table that is found comes from a file with the debug ID
    of the call that found it, and no one is told that the nil ID does not match. -/
theorem getSymbolsRetryId_fromOneFile (rounds : Nat → Round) (fuel : Nat) (debugName : String) :
    (∀ expected, Refused (rounds 0) fuel debugName .nil expected →
      getSymbolsRetryId rounds fuel debugName none = (rounds 1).table fuel debugName expected) ∧
    ((∀ expected, ¬ Refused (rounds 0) fuel debugName .nil expected) →
      getSymbolsRetryId rounds fuel debugName none = (rounds 0).table fuel debugName .nil) ∧
    (∀ table, getSymbolsRetryId rounds fuel debugName none = .ok table →
      ∃ n debugId, (n = 0 ∧ debugId = .nil ∨
          n = 1 ∧ debugId ≠ .nil ∧ Refused (rounds 0) fuel debugName .nil debugId) ∧
        ∃ i candidate source debugInfo,
          Supplies ((rounds n).outsides i) fuel ⟨debugName, debugId, .allSymbols⟩ table candidate
            source debugInfo ∧
          source.debugId = some debugId) ∧
    ∀ expected, getSymbolsRetryId rounds fuel debugName none
      ≠ .err (.unmatchedDebugId expected .nil) := by
  refine ⟨fun _ h => getSymbolsRetryId_of_refused h, getSymbolsRetryId_of_not_refused, ?_, ?_⟩
  · intro table htable
    by_cases hrefused : ∃ expected, Refused (rounds 0) fuel debugName .nil expected
    · obtain ⟨expected, hrefused⟩ := hrefused
      rw [getSymbolsRetryId_of_refused hrefused] at htable
      obtain ⟨before, candidate, -, -, -, -, source, debugInfo, hsupplies⟩ :=
        exists_supplies htable
      have hne : expected ≠ .nil := by
        obtain ⟨-, -, -, -, -, -, -, hne⟩ := hrefused
        exact hne
      exact ⟨1, expected, Or.inr ⟨rfl, hne, hrefused⟩, before.length, candidate, source, debugInfo,
        hsupplies⟩
    · rw [getSymbolsRetryId_of_not_refused (not_exists.mp hrefused)] at htable
      obtain ⟨before, candidate, -, -, -, -, source, debugInfo, hsupplies⟩ :=
        exists_supplies htable
      exact ⟨0, .nil, Or.inl ⟨rfl, rfl⟩, before.length, candidate, source, debugInfo, hsupplies⟩
  · intro expected h
    by_cases hrefused : ∃ expected, Refused (rounds 0) fuel debugName .nil expected
    · obtain ⟨expected', hrefused⟩ := hrefused
      rw [getSymbolsRetryId_of_refused hrefused] at h
      -- a mismatch in the second round names the ID of that round, which is not the nil one
      obtain ⟨hnil, -⟩ := Round.table_eq_unmatched.mp h
      obtain ⟨-, -, -, -, -, -, -, hne⟩ := hrefused
      exact hne hnil.symm
    · rw [getSymbolsRetryId_of_not_refused (not_exists.mp hrefused)] at h
      exact hrefused ⟨expected, (Round.table_eq_unmatched.mp h).2⟩

/-- **AN OFFER**: a query that ends with the debug IDs of a fat file has come to that file
    last, and has all the debug IDs of its slices to offer. -/
theorem Round.table_eq_noMatch {round : Round} {uuids : List DebugId}
    {errors : List GetSymbolsError}
    (h : round.table fuel debugName debugId = .err (.noMatchMultiArch uuids errors)) :
    ∃ before location contents arches,
      round.helper.getCandidatePathsForBinaryOrPdb debugName debugId
        = .ok (before ++ [.singleFile location]) ∧
      Offers (round.outsides before.length) location contents arches ∧
      (∀ arch ∈ arches, MachO.Parses contents arch) ∧ uuids = sliceIds contents arches := by
  have hids : NamesIds (.noMatchMultiArch uuids errors) := trivial
  rw [Round.table, getCompactSymbolTable, getSymbolicationResult] at h
  rcases Outcome.bind_eq_err.mp h with hcandidates | ⟨candidates, hcandidates, h⟩
  · exact absurd hids (not_namesIds_of_mapError (fun _ => id) hcandidates)
  have hcandidates := Outcome.ofExcept_mapError_eq_ok.mp hcandidates
  rcases tryCandidates_eq_err_cases h with ⟨-, he⟩ | ⟨before, last, rfl, -, hlast⟩
  · cases he
  · cases last with
    | inDyldCache dyldCachePath dylibPath =>
        obtain ⟨source, -, expected, -, -, he⟩ := (dyldImage_eq_err rfl hids).mp hlast
        cases he
    | singleFile location =>
        rcases tryCandidate_eq_err_file rfl hids hlast with
          ⟨source, -, expected, -, -, he⟩ | ⟨contents, arches, hoffers, hrange⟩
        · cases he
        · rcases findArchRange_eq_error hrange with ⟨errs, he, hparses⟩ | ⟨e, he⟩
          · cases he
            exact ⟨before, location, contents, arches, hcandidates, hoffers, hparses, rfl⟩
          · cases he

end Retry

end Candidates

end ProfilerGetSymbols
