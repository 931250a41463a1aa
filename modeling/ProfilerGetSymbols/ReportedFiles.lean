import ProfilerGetSymbols.FrameByFrame
import ProfilerGetSymbols.Source

/-! # Reported files — what one API reports, the other one opens

    A symbolication supplies its results call by call.  `/symbolicate/v5` keeps
    the calls of an address in a slot, which a symbol resets, and splits the
    frames in it into the outer one and the inlines.  `/source/v1` keeps the
    frames alone and searches them.  On the same calls the one reports exactly
    the files that the other accepts. -/

namespace ProfilerGetSymbols.ReportedFiles

open ProgLib Paths SymbolicateV5

/-! ## Replaying a symbolication -/

section Replay

variable {R ε : Type} [SymbolicationResult R]

/-- Make a call. -/
def apply (result : R) : ResultCall → Call ε R
  | .fromFullMap map => SymbolicationResult.fromFullMap map
  | .forAddresses addresses => SymbolicationResult.forAddresses addresses
  | .addAddressSymbol address symbolAddress symbolName functionSize =>
      SymbolicationResult.addAddressSymbol result address symbolAddress symbolName functionSize
  | .addAddressDebugInfo address info =>
      SymbolicationResult.addAddressDebugInfo result address info
  | .setTotalSymbolCount totalSymbolCount =>
      SymbolicationResult.setTotalSymbolCount result totalSymbolCount

/-- A symbolication for some addresses that makes these calls. -/
def replay (addresses : List Nat) (calls : List ResultCall) : Call ε R := do
  let result ← SymbolicationResult.forAddresses addresses
  calls.foldlM apply result

/-- The call is about another address. -/
def aboutOther (address : Nat) : ResultCall → Bool
  | .addAddressSymbol other _ _ _ => other != address
  | .addAddressDebugInfo other _ => other != address
  | _ => false

/-- The calls that a symbolication for the address alone makes of these. -/
def callsFor (address : Nat) (calls : List ResultCall) : List ResultCall :=
  calls.filter (fun call => !aboutOther address call)

/-- The call adds to a result. -/
def Adds : ResultCall → Prop
  | .fromFullMap _ => False
  | .forAddresses _ => False
  | _ => True

/-- The calls about an address come **IN ORDER**: symbols first, then debug info,
    which has frames. -/
structure InOrder (address : Nat) (calls : List ResultCall) : Prop where
  adds : ∀ call ∈ calls, Adds call
  symbolsFirst : ∃ before after, calls = before ++ after ∧
    (∀ info, ResultCall.addAddressDebugInfo address info ∉ before) ∧
    ∀ symbolAddress symbolName functionSize,
      ResultCall.addAddressSymbol address symbolAddress symbolName functionSize ∉ after
  frames : ∀ info, ResultCall.addAddressDebugInfo address info ∈ calls → info.frames ≠ []

end Replay

/-! ## The frames that are kept -/

/-- The frames of an address in its slot, after one more call. -/
def slotFrames (address : Nat) (frames : Option (List InlineStackFrame)) :
    ResultCall → Option (List InlineStackFrame)
  | .addAddressSymbol other _ _ _ => if other = address then none else frames
  | .addAddressDebugInfo other info => if other = address then some info.frames else frames
  | _ => frames

/-- The frames last supplied for an address, after one more call. -/
def lastFrames (address : Nat) (frames : Option (List InlineStackFrame)) :
    ResultCall → Option (List InlineStackFrame)
  | .addAddressDebugInfo other info => if other = address then some info.frames else frames
  | .addAddressSymbol _ _ _ _ => frames
  | .setTotalSymbolCount _ => frames
  | .forAddresses _ => frames
  | .fromFullMap _ => frames

/-- Until the first debug info there is nothing for a symbol to reset. -/
theorem foldl_before {address : Nat} {calls : List ResultCall}
    (h : ∀ info, ResultCall.addAddressDebugInfo address info ∉ calls) :
    calls.foldl (slotFrames address) none = none ∧ calls.foldl (lastFrames address) none = none := by
  induction calls with
  | nil => exact ⟨rfl, rfl⟩
  | cons call calls ih =>
      have ih' := ih (fun info hmem => h info (List.mem_cons_of_mem _ hmem))
      rw [List.foldl_cons, List.foldl_cons]
      cases call with
      | fromFullMap map => exact ih'
      | forAddresses addresses => exact ih'
      | setTotalSymbolCount count => exact ih'
      | addAddressSymbol other symbolAddress symbolName functionSize =>
          rw [slotFrames, lastFrames, ite_self]
          exact ih'
      | addAddressDebugInfo other info =>
          have hother : other ≠ address := by
            rintro rfl
            exact h info (List.mem_cons_self ..)
          rw [slotFrames, lastFrames, if_neg hother]
          exact ih'

/-- After the last symbol the two keep the same. -/
theorem foldl_after {address : Nat} {calls : List ResultCall}
    (h : ∀ symbolAddress symbolName functionSize,
      ResultCall.addAddressSymbol address symbolAddress symbolName functionSize ∉ calls)
    (frames : Option (List InlineStackFrame)) :
    calls.foldl (slotFrames address) frames = calls.foldl (lastFrames address) frames := by
  induction calls generalizing frames with
  | nil => rfl
  | cons call calls ih =>
      have ih' := ih (fun a n s hmem => h a n s (List.mem_cons_of_mem _ hmem))
      rw [List.foldl_cons, List.foldl_cons]
      cases call with
      | fromFullMap map => exact ih' frames
      | forAddresses addresses => exact ih' frames
      | setTotalSymbolCount count => exact ih' frames
      | addAddressSymbol other symbolAddress symbolName functionSize =>
          have hother : other ≠ address := by
            rintro rfl
            exact h _ _ _ (List.mem_cons_self ..)
          rw [slotFrames, lastFrames, if_neg hother]
          exact ih' frames
      | addAddressDebugInfo other info =>
          rw [slotFrames, lastFrames]
          exact ih' _

/-- **THE SAME FRAMES** are kept of calls that come in order. -/
theorem InOrder.foldl_eq {address : Nat} {calls : List ResultCall} (h : InOrder address calls) :
    calls.foldl (slotFrames address) none = calls.foldl (lastFrames address) none := by
  obtain ⟨before, after, rfl, hbefore, hafter⟩ := h.symbolsFirst
  obtain ⟨hslot, hlast⟩ := foldl_before hbefore
  rw [List.foldl_append, List.foldl_append, hslot, hlast]
  exact foldl_after hafter none

/-- The frames kept are those of one of the calls. -/
theorem mem_of_foldl_lastFrames {address : Nat} {calls : List ResultCall}
    {frames : List InlineStackFrame} (h : calls.foldl (lastFrames address) none = some frames) :
    ∃ info, ResultCall.addAddressDebugInfo address info ∈ calls ∧ info.frames = frames := by
  induction calls using List.reverseRecOn with
  | nil => cases h
  | append_singleton calls call ih =>
      rw [List.foldl_append, List.foldl_cons, List.foldl_nil] at h
      have hearlier : calls.foldl (lastFrames address) none = some frames →
          ∃ info, ResultCall.addAddressDebugInfo address info ∈ calls ++ [call] ∧
            info.frames = frames := by
        intro hcalls
        obtain ⟨info, hmem, hframes⟩ := ih hcalls
        exact ⟨info, List.mem_append_left _ hmem, hframes⟩
      cases call with
      | fromFullMap map => exact hearlier h
      | forAddresses addresses => exact hearlier h
      | setTotalSymbolCount count => exact hearlier h
      | addAddressSymbol other symbolAddress symbolName functionSize => exact hearlier h
      | addAddressDebugInfo other info =>
          rw [lastFrames] at h
          by_cases hother : other = address
          · rw [if_pos hother] at h
            subst hother
            exact ⟨info, List.mem_append_right _ (List.mem_singleton_self _), Option.some.inj h⟩
          · rw [if_neg hother] at h
            exact hearlier h

/-! ## What the two results keep -/

section Kept

variable [Crates] {ε : Type}

/-- The frames in the slot of an address. -/
def heldFrames (table : LookedUpAddresses) (address : Nat) : Option (List InlineStackFrame) :=
  (table.addressResults.get? address).join.bind (·.inlineFrames)

omit [Crates] in
theorem heldFrames_setSlot (table : LookedUpAddresses) (other address : Nat) (slot : AddressResult) :
    heldFrames (table.setSlot other slot) address
      = if other = address then slot.inlineFrames else heldFrames table address := by
  rw [heldFrames, LookedUpAddresses.get?_setSlot]
  split
  · rfl
  · rfl

/-- One call on the looked-up addresses. -/
theorem heldFrames_apply {table table' : LookedUpAddresses} {address : Nat} {call : ResultCall}
    (hadds : Adds call) (hhas : table.Has address)
    (h : (apply table call : Call ε _) = .ok table') :
    table'.Has address ∧ heldFrames table' address = slotFrames address (heldFrames table address) call := by
  cases call with
  | fromFullMap map => exact hadds.elim
  | forAddresses addresses => exact hadds.elim
  | setTotalSymbolCount count =>
      rw [← Outcome.ok.inj h]
      exact ⟨hhas, rfl⟩
  | addAddressSymbol other symbolAddress symbolName functionSize =>
      obtain ⟨name, -, hother, rfl⟩ := LookedUpAddresses.addAddressSymbol_eq_ok.mp h
      refine ⟨(LookedUpAddresses.has_setSlot hother _ address).mpr hhas, ?_⟩
      rw [heldFrames_setSlot]
      rfl
  | addAddressDebugInfo other info =>
      obtain ⟨entry, hentry, rfl⟩ := LookedUpAddresses.addAddressDebugInfo_eq_ok.mp h
      have hother : table.Has other := by
        rw [LookedUpAddresses.Has, hentry]
        rfl
      refine ⟨(LookedUpAddresses.has_setSlot hother _ address).mpr hhas, ?_⟩
      rw [heldFrames_setSlot]
      cases entry with
      | none => rfl
      | some result => rfl

/-- All the calls on the looked-up addresses. -/
theorem heldFrames_foldlM {address : Nat} {calls : List ResultCall}
    (hadds : ∀ call ∈ calls, Adds call) {table table' : LookedUpAddresses}
    (hhas : table.Has address) (h : (calls.foldlM apply table : Call ε _) = .ok table') :
    table'.Has address ∧
      heldFrames table' address = calls.foldl (slotFrames address) (heldFrames table address) := by
  induction calls generalizing table with
  | nil =>
      rw [← Outcome.ok.inj h]
      exact ⟨hhas, rfl⟩
  | cons call calls ih =>
      rw [List.foldlM_cons] at h
      obtain ⟨table₁, happly, hrest⟩ := Outcome.bind_eq_ok.mp h
      obtain ⟨hhas₁, hframes⟩ := heldFrames_apply (hadds call (List.mem_cons_self ..)) hhas happly
      rw [List.foldl_cons, ← hframes]
      exact ih (fun call' hcall' => hadds call' (List.mem_cons_of_mem _ hcall')) hhas₁ hrest

omit [Crates] in
/-- A call about one address, on the frames for it. -/
theorem apply_frames {address : Nat} {call : ResultCall} (hadds : Adds call)
    (hcall : aboutOther address call = false) (frames : Option (List InlineStackFrame)) :
    (apply (⟨address, frames⟩ : FramesForSingleAddress) call : Call ε _)
      = .ok ⟨address, lastFrames address frames call⟩ := by
  cases call with
  | fromFullMap map => exact hadds.elim
  | forAddresses addresses => exact hadds.elim
  | setTotalSymbolCount count => rfl
  | addAddressSymbol other symbolAddress symbolName functionSize =>
      obtain rfl : other = address := by simpa [aboutOther] using hcall
      exact FramesForSingleAddress.addAddressSymbol_eq_ok.mpr ⟨rfl, rfl⟩
  | addAddressDebugInfo other info =>
      obtain rfl : other = address := by simpa [aboutOther] using hcall
      rw [lastFrames, if_pos rfl]
      exact FramesForSingleAddress.addAddressDebugInfo_eq_ok.mpr ⟨rfl, rfl⟩

omit [Crates] in
/-- A call about another address does not change the frames for this one. -/
theorem lastFrames_of_aboutOther {address : Nat} {call : ResultCall}
    (hcall : aboutOther address call = true) (frames : Option (List InlineStackFrame)) :
    lastFrames address frames call = frames := by
  cases call with
  | fromFullMap map => rfl
  | forAddresses addresses => rfl
  | setTotalSymbolCount count => rfl
  | addAddressSymbol other symbolAddress symbolName functionSize => rfl
  | addAddressDebugInfo other info =>
      have hother : other ≠ address := by simpa [aboutOther] using hcall
      exact if_neg hother

omit [Crates] in
/-- All the calls about one address, on the frames for it. -/
theorem foldlM_callsFor {address : Nat} {calls : List ResultCall}
    (hadds : ∀ call ∈ calls, Adds call) (frames : Option (List InlineStackFrame)) :
    ((callsFor address calls).foldlM apply (⟨address, frames⟩ : FramesForSingleAddress)
      : Call ε _) = .ok ⟨address, calls.foldl (lastFrames address) frames⟩ := by
  induction calls generalizing frames with
  | nil => rfl
  | cons call calls ih =>
      have ih' := ih (fun call' hcall' => hadds call' (List.mem_cons_of_mem _ hcall'))
      rw [callsFor, List.filter_cons, List.foldl_cons]
      cases hcall : aboutOther address call with
      | true =>
          rw [lastFrames_of_aboutOther hcall]
          exact ih' frames
      | false =>
          rw [if_pos (by rfl), List.foldlM_cons, apply_frames (hadds call (List.mem_cons_self ..)) hcall,
            Outcome.ok_bind]
          exact ih' _

/-- **ONE SYMBOLICATION, TWO RESULTS**: the slot of the address and the frames
    for it hold the same frames. -/
theorem replay_sameFrames {address : Nat} {addresses : List Nat} {calls : List ResultCall}
    (hordered : InOrder address calls) (haddress : address ∈ addresses)
    {table : LookedUpAddresses} (h : (replay addresses calls : Call ε _) = .ok table) :
    table.Has address ∧
      (replay [address] (callsFor address calls) : Call ε FramesForSingleAddress)
        = .ok ⟨address, heldFrames table address⟩ := by
  obtain ⟨table₀, hfor, hcalls⟩ := Outcome.bind_eq_ok.mp h
  obtain rfl : _ = table₀ := Outcome.ok.inj hfor
  obtain ⟨hhas, hframes⟩ := heldFrames_foldlM hordered.adds
    (LookedUpAddresses.has_forAddresses.mpr haddress) hcalls
  have hnone : heldFrames (LookedUpAddresses.forAddresses addresses) address = none := by
    rw [heldFrames, LookedUpAddresses.get?_forAddresses, if_pos haddress]
    rfl
  rw [hnone, hordered.foldl_eq] at hframes
  refine ⟨hhas, ?_⟩
  rw [hframes]
  exact foldlM_callsFor hordered.adds none

/-- The frames in the slot are not empty. -/
theorem heldFrames_ne_nil {address : Nat} {addresses : List Nat} {calls : List ResultCall}
    (hordered : InOrder address calls) (haddress : address ∈ addresses)
    {table : LookedUpAddresses} (h : (replay addresses calls : Call ε _) = .ok table)
    {frames : List InlineStackFrame} (hframes : heldFrames table address = some frames) :
    frames ≠ [] := by
  obtain ⟨-, hreplay⟩ := replay_sameFrames hordered haddress h
  have hlast : calls.foldl (lastFrames address) none = some frames := by
    have hsame := (foldlM_callsFor hordered.adds none).symm.trans hreplay
    rw [← hframes]
    exact congrArg FramesForSingleAddress.frames (Outcome.ok.inj hsame)
  obtain ⟨info, hmem, rfl⟩ := mem_of_foldl_lastFrames hlast
  exact hordered.frames info hmem

end Kept

/-! ## What the two responses say -/

section Responses

variable [Platform] [Crates] {ε : Type}

/-- The files of the frames, from the innermost outwards. -/
def filePaths (frames : List InlineStackFrame) : List FilePath := frames.filterMap (·.filePath)

/-- The files that a frame of a response carries: its own, and that of each inline. -/
def reportedFiles (frame : Response.StackFrame) : List String :=
  match frame.symbol.bind (·.debugInfo) with
  | none => []
  | some info => info.file.toList ++ info.inlines.filterMap (·.file)

omit [Crates] in
/-- Splitting the last frame off loses no file. -/
theorem mem_files_of_debugInfo {frames : List InlineStackFrame} {info : Response.DebugInfo}
    (h : (debugInfo frames : Call ε _) = .ok info) (file : String) :
    file ∈ info.file.toList ++ info.inlines.filterMap (·.file) ↔
      ∃ filePath ∈ filePaths frames, filePath.mappedPath = file := by
  obtain ⟨outer, houter, heq⟩ := Outcome.bind_eq_ok.mp h
  have hlast := Outcome.unwrap_eq_ok.mp houter
  have hframes : frames = frames.dropLast ++ [outer] :=
    (List.dropLast_append_getLast? outer hlast).symm
  rw [← Outcome.ok.inj heq]
  have hmem : ∀ filePath, filePath ∈ filePaths frames ↔
      filePath ∈ filePaths frames.dropLast ∨ outer.filePath = some filePath := by
    intro filePath
    conv_lhs => rw [hframes]
    simp [filePaths]
  have hinlines : (frames.dropLast.map inlineFrame).filterMap (·.file)
      = (filePaths frames.dropLast).map (·.mappedPath) := by
    rw [filePaths, List.filterMap_map, List.map_filterMap]
    rfl
  rw [List.mem_append, hinlines, List.mem_map]
  constructor
  · rintro (houter | ⟨filePath, hfile, heq⟩)
    · obtain ⟨filePath, hfile, heq⟩ := Option.map_eq_some_iff.mp (Option.mem_toList.mp houter)
      exact ⟨filePath, (hmem filePath).mpr (Or.inr hfile), heq⟩
    · exact ⟨filePath, (hmem filePath).mpr (Or.inl hfile), heq⟩
  · rintro ⟨filePath, hfile, heq⟩
    rcases (hmem filePath).mp hfile with hinline | houter
    · exact Or.inr ⟨filePath, hinline, heq⟩
    · refine Or.inl (Option.mem_toList.mpr ?_)
      exact Option.map_eq_some_iff.mpr ⟨filePath, houter, heq⟩

omit [Crates] in
/-- The symbol made of a slot. -/
theorem symbolForResult_of_held {address : Nat} {result : AddressResult}
    {held : Option (List InlineStackFrame)} (hheld : result.inlineFrames = held) :
    (symbolForResult address result : Call ε _)
      = held.elim (.ok ⟨result.symbolName, u32Sub address result.symbolAddress,
          result.functionSize, none⟩)
        (fun frames => (debugInfo frames).bind (fun info => .ok ⟨result.symbolName,
          u32Sub address result.symbolAddress, result.functionSize, some info⟩)) := by
  subst hheld
  obtain ⟨symbolAddress, symbolName, functionSize, inlineFrames⟩ := result
  cases inlineFrames with
  | none => rfl
  | some frames =>
      show ((some <$> debugInfo frames) >>= _ : Call ε _) = (debugInfo frames >>= _)
      cases (debugInfo frames : Call ε _) with
      | ok info => rfl
      | err e => rfl
      | panic site => rfl
      | unfinished => rfl

omit [Crates] in
/-- What a frame of a response reports, by the slot of its address. -/
theorem responseFrame_of_held {memoryMap : List Lib}
    {symbolsByModuleIndex : HashMap Nat AddressResults} {frame : Request.StackFrame} {lib : Lib}
    {table : LookedUpAddresses} (hlib : memoryMap[frame.moduleIndex.toNat]? = some lib)
    (hget : symbolsByModuleIndex.get? frame.moduleIndex.toNat = some table.addressResults)
    (hhas : table.Has frame.address.toNat)
    (hframes : ∀ frames, heldFrames table frame.address.toNat = some frames → frames ≠ [])
    (index : Nat) :
    ∃ responseFrame, (responseFrameForRequestFrame memoryMap symbolsByModuleIndex (frame, index)
        : Call ε _) = .ok responseFrame ∧
      ∀ file, file ∈ reportedFiles responseFrame ↔
        ∃ frames, heldFrames table frame.address.toNat = some frames ∧
          ∃ filePath ∈ filePaths frames, filePath.mappedPath = file := by
  obtain ⟨slot, hslot⟩ := Option.isSome_iff_exists.mp hhas
  have hsymbol : ∀ symbol, (symbolForFrame frame symbolsByModuleIndex : Call ε _) = .ok symbol →
      (responseFrameForRequestFrame memoryMap symbolsByModuleIndex (frame, index) : Call ε _)
        = .ok ⟨asU32 index, frame.address.toNat, lib.debugName, symbol⟩ := by
    intro symbol h
    rw [responseFrameForRequestFrame, h, Outcome.ok_bind, hlib]
    rfl
  have hlookup := symbolForFrame_of_slot (ε := ε) hget hslot
  have hheld : heldFrames table frame.address.toNat = slot.bind (·.inlineFrames) := by
    rw [heldFrames, hslot]
    rfl
  rw [hheld]
  -- no symbol and no frames report no file; frames report the outer file and the inlined ones
  cases slot with
  | none =>
      refine ⟨_, hsymbol none hlookup, fun file => ?_⟩
      constructor
      · exact fun h => by cases h
      · rintro ⟨frames, h, -⟩
        cases h
  | some result =>
      cases hinline : result.inlineFrames with
      | none =>
          refine ⟨_, hsymbol (some ⟨result.symbolName,
            u32Sub frame.address.toNat result.symbolAddress, result.functionSize, none⟩) ?_,
            fun file => ?_⟩
          · rw [hlookup, Option.elim_some, symbolForResult_of_held hinline]
            rfl
          · constructor
            · exact fun h => by cases h
            · rintro ⟨frames, h, -⟩
              rw [Option.bind_some, hinline] at h
              cases h
      | some frames =>
          have hne : frames ≠ [] := by
            refine hframes frames ?_
            rw [hheld, Option.bind_some, hinline]
          obtain ⟨outer, houter⟩ := Option.isSome_iff_exists.mp (List.getLast?_isSome.mpr hne)
          obtain ⟨info, hinfo⟩ : ∃ info, (debugInfo frames : Call ε _) = .ok info := by
            rw [debugInfo, houter]
            exact ⟨_, rfl⟩
          refine ⟨_, hsymbol (some ⟨result.symbolName,
            u32Sub frame.address.toNat result.symbolAddress, result.functionSize, some info⟩) ?_,
            fun file => ?_⟩
          · rw [hlookup, Option.elim_some, symbolForResult_of_held hinline, Option.elim_some, hinfo]
            rfl
          · refine (mem_files_of_debugInfo hinfo file).trans ?_
            rw [Option.bind_some, hinline]
            simp

/-- What a request for a file finds, by the frames of the lookup. -/
theorem requestedFilePath_of_frames {getFrames : Source.Lookup} {request : Source.Request}
    {debugId : DebugId} {address : Nat} {held : Option (List InlineStackFrame)}
    (hid : (toDebugId request.debugId : Call GetSymbolsError _) = .ok debugId)
    (hframes : getFrames (Source.symbolicationQuery request debugId) = .ok ⟨address, held⟩) :
    Source.requestedFilePath getFrames request
      = held.elim (.err .noDebugInfo) (fun frames =>
          ((filePaths frames).find? (·.mappedPath == request.file)).elim (.err .invalidPath) .ok) := by
  rw [Source.requestedFilePath, hid]
  show ((getFrames (Source.symbolicationQuery request debugId)).mapErr _ >>= _ : Call _ _) = _
  rw [hframes]
  cases held with
  | none => rfl
  | some frames =>
      show Outcome.ofExcept (((filePaths frames).find? _).elim _ _)
        = ((filePaths frames).find? _).elim _ _
      cases (filePaths frames).find? (·.mappedPath == request.file) with
      | none => rfl
      | some filePath => rfl

/-- A file is accepted if it is among those of the frames. -/
theorem not_refused_of_frames (helper : FileAndPathHelper) {getFrames : Source.Lookup}
    (request : Source.Request) {debugId : DebugId} {address : Nat}
    {held : Option (List InlineStackFrame)}
    (hid : (toDebugId request.debugId : Call GetSymbolsError _) = .ok debugId)
    (hframes : getFrames (Source.symbolicationQuery request debugId) = .ok ⟨address, held⟩) :
    ¬ Source.Refused helper getFrames request ↔
      ∃ frames, held = some frames ∧
        ∃ filePath ∈ filePaths frames, filePath.mappedPath = request.file := by
  rw [Source.refused_iff, requestedFilePath_of_frames hid hframes]
  cases held with
  | none => simp
  | some frames =>
      rw [Option.elim_some]
      cases hfind : (filePaths frames).find? (·.mappedPath == request.file) with
      | none =>
          refine iff_of_false (fun h => h (Or.inr rfl)) ?_
          rintro ⟨frames', heq, filePath, hmem, hmapped⟩
          rw [← Option.some.inj heq] at hmem
          exact List.find?_eq_none.mp hfind filePath hmem (beq_iff_eq.mpr hmapped)
      | some filePath =>
          refine iff_of_true (by simp) ⟨frames, rfl, filePath, List.mem_of_find?_eq_some hfind, ?_⟩
          have hmapped := List.find?_some hfind
          exact beq_iff_eq.mp hmapped

/-- For an accepted file the first frame with it decides what is opened. -/
theorem opened_of_frames (helper : FileAndPathHelper) {getFrames : Source.Lookup}
    (request : Source.Request) {debugId : DebugId} {address : Nat}
    {frames : List InlineStackFrame}
    (hid : (toDebugId request.debugId : Call GetSymbolsError _) = .ok debugId)
    (hframes : getFrames (Source.symbolicationQuery request debugId) = .ok ⟨address, some frames⟩)
    (hmem : ∃ filePath ∈ filePaths frames, filePath.mappedPath = request.file) :
    ∃ filePath, (filePaths frames).find? (·.mappedPath == request.file) = some filePath ∧
      Source.opened helper getFrames request = filePath.localPath.toList.map .path := by
  obtain ⟨filePath, hfile, hmapped⟩ := hmem
  have hsome : ((filePaths frames).find? (·.mappedPath == request.file)).isSome := by
    rw [List.find?_isSome]
    exact ⟨filePath, hfile, beq_iff_eq.mpr hmapped⟩
  obtain ⟨first, hfirst⟩ := Option.isSome_iff_exists.mp hsome
  refine ⟨first, hfirst, ?_⟩
  rw [Source.opened_eq, requestedFilePath_of_frames hid hframes, Option.elim_some, hfirst]
  rfl

end Responses

/-! ## The two interfaces agree -/

/-- Both APIs use the same symbolication: it makes the same calls about an
    address, whichever others are asked for with it. -/
structure SameSymbolication [Crates] (getSymbolicationResult : SymbolicateV5.Lookup)
    (getFrames : Source.Lookup) (lib : Lib) (requested : List Nat) (address : Nat)
    (calls : List ResultCall) : Prop where
  inOrder : InOrder address calls
  asked : address ∈ requested
  addresses : ∀ debugId, (toDebugId lib.breakpadId : Call GetSymbolsError _) = .ok debugId →
    getSymbolicationResult
      ⟨lib.debugName, debugId, .symbolsForAddresses (sortAndDedup requested) true⟩
      = replay (sortAndDedup requested) calls
  frames : ∀ debugId, (toDebugId lib.breakpadId : Call GetSymbolsError _) = .ok debugId →
    getFrames ⟨lib.debugName, debugId, .symbolsForAddresses [address] true⟩
      = replay [address] (callsFor address calls)

/-- A request for a file that a frame in the library refers to. -/
def requestFor (lib : Lib) (address : UInt32) (file : String) : Source.Request :=
  ⟨lib.debugName, lib.breakpadId, address, file⟩

/-- **ACCEPTED IS WHAT IS REPORTED**: the files that the frame of a response
    carries are those for which a request is not refused, and such a request
    opens the local path of the first frame with that file. -/
theorem queryApi_acceptsReportedFiles [Platform] [Crates] (helper : FileAndPathHelper)
    (getSymbolicationResult : SymbolicateV5.Lookup) (getFrames : Source.Lookup) (lib : Lib)
    (requested : List Nat) (calls : List ResultCall) (frame : Request.StackFrame)
    (hsame : SameSymbolication getSymbolicationResult getFrames lib requested frame.address.toNat
      calls)
    (table : LookedUpAddresses)
    (htable : (lookUpLib getSymbolicationResult true lib requested : Call GetSymbolsError _)
      = .ok (.ok table))
    (memoryMap : List Lib) (hlib : memoryMap[frame.moduleIndex.toNat]? = some lib)
    (symbolsByModuleIndex : HashMap Nat AddressResults)
    (hget : symbolsByModuleIndex.get? frame.moduleIndex.toNat = some table.addressResults)
    (index : Nat) :
    ∃ responseFrame, (responseFrameForRequestFrame memoryMap symbolsByModuleIndex (frame, index)
        : Call GetSymbolsError _) = .ok responseFrame ∧
      (∀ file, file ∈ reportedFiles responseFrame ↔
        ¬ Source.Refused helper getFrames (requestFor lib frame.address file)) ∧
      ∀ file ∈ reportedFiles responseFrame, ∃ frames filePath,
        heldFrames table frame.address.toNat = some frames ∧
        (filePaths frames).find? (·.mappedPath == file) = some filePath ∧
        Source.opened helper getFrames (requestFor lib frame.address file)
          = filePath.localPath.toList.map .path := by
  -- the library's ID parses, since the lookup gave a table
  obtain ⟨debugId, hid, hlookup⟩ := Outcome.bind_eq_ok.mp (Outcome.attempt_eq_ok_ok.mp htable)
  have hreplay : (replay (sortAndDedup requested) calls : Call GetSymbolsError _) = .ok table :=
    (hsame.addresses debugId hid).symm.trans hlookup
  have hasked := mem_sortAndDedup.mpr hsame.asked
  obtain ⟨hhas, hsource⟩ := replay_sameFrames hsame.inOrder hasked hreplay
  obtain ⟨responseFrame, hresponse, hfiles⟩ := responseFrame_of_held (ε := GetSymbolsError) hlib
    hget hhas (fun frames h => heldFrames_ne_nil hsame.inOrder hasked hreplay h) index
  have hframes := (hsame.frames debugId hid).trans hsource
  refine ⟨responseFrame, hresponse, fun file => ?_, fun file hfile => ?_⟩
  · rw [hfiles]
    exact (not_refused_of_frames helper (requestFor lib frame.address file) hid hframes).symm
  · obtain ⟨frames, hheld, hmem⟩ := (hfiles file).mp hfile
    rw [hheld] at hframes
    obtain ⟨filePath, hfirst, hopened⟩ :=
      opened_of_frames helper (requestFor lib frame.address file) hid hframes hmem
    exact ⟨frames, filePath, hheld, hfirst, hopened⟩

section Samples

local instance : Platform := Paths.unix

local instance : Crates := sampleCrates

/-- An inlined function in a mapped file, and the outer one in a local file. -/
def sampleFrames : List InlineStackFrame :=
  [⟨some "inner", some (.localMapped (.ofString "/src/inner.c") "git:inner.c"), some 3⟩,
    ⟨some "outer", some (.local (.ofString "/src/outer.c")), some 12⟩]

def sampleCalls : List ResultCall :=
  [.setTotalSymbolCount 2, .addAddressSymbol 5 2 "f" none, .addAddressSymbol 7 6 "g" none,
    .addAddressDebugInfo 5 ⟨sampleFrames⟩]

/-- The slot of the address 5 with its frames, and that of 7 with a symbol alone. -/
def sampleTable : LookedUpAddresses where
  addressResults := (((LookedUpAddresses.forAddresses [5, 7]).setSlot 5
    (LookedUpAddresses.symbolResult 2 "f" none)).setSlot 7
    (LookedUpAddresses.symbolResult 6 "g" none)).setSlot 5
    ⟨2, "outer", none, some sampleFrames⟩ |>.addressResults
  symbolCount := 2

/-- A helper with empty files. -/
def sampleHelper : FileAndPathHelper where
  getCandidatePathsForBinaryOrPdb _ _ := .ok []
  getCandidatePathsForPdb _ _ _ _ := .ok []
  openFile _ := .ok (.zeros 0)

theorem sameSymbolication_sampleCalls :
    SameSymbolication (fun _ => replay [5, 7] sampleCalls)
      (fun _ => replay [5] (callsFor 5 sampleCalls)) libA [7, 5] 5 sampleCalls where
  inOrder := {
    adds := by
      intro call hcall
      simp only [sampleCalls, List.mem_cons, List.not_mem_nil, or_false] at hcall
      rcases hcall with rfl | rfl | rfl | rfl
      · exact trivial
      · exact trivial
      · exact trivial
      · exact trivial
    symbolsFirst := ⟨sampleCalls.take 3, sampleCalls.drop 3, rfl, by simp [sampleCalls],
      by simp [sampleCalls]⟩
    frames := by simp [sampleCalls, sampleFrames] }
  asked := by decide
  addresses _ _ := rfl
  frames _ _ := rfl

/-- The files of two frames, one of them mapped. -/
theorem queryApi_acceptsReportedFiles_two_frames :
    ∃ responseFrame, (responseFrameForRequestFrame [libA]
        (HashMap.ofList [(0, sampleTable.addressResults)]) (⟨0, 5⟩, 0)
        : Call GetSymbolsError _) = .ok responseFrame ∧
      (∀ file, file ∈ reportedFiles responseFrame ↔
        ¬ Source.Refused sampleHelper (fun _ => replay [5] (callsFor 5 sampleCalls))
          (requestFor libA 5 file)) ∧
      ∀ file ∈ reportedFiles responseFrame, ∃ frames filePath,
        heldFrames sampleTable 5 = some frames ∧
        (filePaths frames).find? (·.mappedPath == file) = some filePath ∧
        Source.opened sampleHelper (fun _ => replay [5] (callsFor 5 sampleCalls))
          (requestFor libA 5 file) = filePath.localPath.toList.map .path :=
  queryApi_acceptsReportedFiles sampleHelper (fun _ => replay [5, 7] sampleCalls) _ libA [7, 5]
    sampleCalls ⟨0, 5⟩ sameSymbolication_sampleCalls sampleTable rfl [libA] rfl _ rfl 0

end Samples

end ProfilerGetSymbols.ReportedFiles
