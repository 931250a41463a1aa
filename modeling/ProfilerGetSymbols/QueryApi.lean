import ProfilerGetSymbols.ReportedFiles
import ProfilerGetSymbols.RequestJson
import ProfilerGetSymbols.ResponseJson

/-! # The JSON API — from a URL and a text to a text

    `query_api` takes a URL and the text of a request, and whatever they are it
    answers with a text.  A client tells from the answer alone which kind it is:
    the results of a symbolication, a source file, or what went wrong.

    A client goes from one API to the other: it symbolicates addresses, picks a
    file that one of the frames shows, and asks for its source with what the frame
    says of itself. -/

namespace ProfilerGetSymbols

open ProgLib Paths SymbolicateV5

/-- `serde_json` and `serde_hex`, as functions of what they are given. -/
class Serde where
  /-- The value that a text stands for. -/
  parse : String → Option Json
  /-- `to_string`. -/
  print : Json → String
  /-- What is wrong with a text that is no request to symbolicate. -/
  requestError : String → String
  /-- What is wrong with a text that is no request for a file. -/
  sourceRequestError : String → String
  /-- `SerHex::<CompactPfx>`, read as `u32`. -/
  compactHex : String → Option UInt32

/-- What a query is answered with. -/
structure Backend where
  helper : FileAndPathHelper
  lookUp : SymbolicateV5.Lookup
  getFrames : Source.Lookup
  /-- The iteration orders of the maps of a query, and of those in its results. -/
  orders : Orders
  mapOrders : Nat → MapOrders

/-! ## The queries -/

/-- `json!({ "error": message })`. -/
def errorJson (message : String) : Json := .object [("error", .string message)]

/-- The text of the response, or the error as an object. -/
def textOrError [Serde] {ε : Type} (response : Call String String) : Call ε String := do
  match ← response.attempt with
  | .ok responseJson => return responseJson
  | .error message => return Serde.print (errorJson message)

section Queries

variable [Serde] [Platform] [Crates]

namespace SymbolicateV5

/-- The request that a text is. -/
def requestOfText (requestJson : String) : Option Request :=
  Serde.parse requestJson >>= Request.fromJson

/-- `query_api_fallible_json`; an error is its message. -/
def queryApiFallibleJson (backend : Backend) (requestJson : String) (withDebugInfo : Bool) :
    Call String String := do
  let request ← .ofExcept ((requestOfText requestJson).elim
    (.error ("Couldn't parse request: " ++ Serde.requestError requestJson)) .ok)
  let response ← (queryApi backend.orders backend.lookUp request withDebugInfo).mapErr (·.message)
  return Serde.print (response.toJson backend.mapOrders)

def queryApiJson {ε : Type} (backend : Backend) (requestJson : String) (withDebugInfo : Bool) :
    Call ε String :=
  textOrError (queryApiFallibleJson backend requestJson withDebugInfo)

end SymbolicateV5

namespace Source

/-- `rename_all = "camelCase"`. -/
def Request.fromJson (j : Json) : Option Request := do
  match ← Json.record? ["debugName", "debugId", "moduleOffset", "file"] j with
  | [debugName, debugId, moduleOffset, file] =>
      return ⟨← debugName.string?, ← debugId.string?, ← moduleOffset.string? >>= Serde.compactHex,
        ← file.string?⟩
  | _ => none

/-- A text, or nothing. -/
def stringOrNull : Option String → Json
  | some s => .string s
  | none => .null

def Response.toJson (response : Response) : Json :=
  .object [("symbolsLastModified", stringOrNull response.symbolsLastModified),
    ("sourceLastModified", stringOrNull response.sourceLastModified),
    ("file", .string response.file), ("source", .string response.source)]

def requestOfText (requestJson : String) : Option Request :=
  Serde.parse requestJson >>= Request.fromJson

def queryApiFallibleJson (backend : Backend) (requestJson : String) : Call String String := do
  let request ← .ofExcept ((requestOfText requestJson).elim
    (.error ("Couldn't parse request: " ++ Serde.sourceRequestError requestJson)) .ok)
  let response ← (answer backend.helper backend.getFrames request).mapErr (·.message)
  return Serde.print response.toJson

def queryApiJson {ε : Type} (backend : Backend) (requestJson : String) : Call ε String :=
  textOrError (queryApiFallibleJson backend requestJson)

end Source

def queryApi {ε : Type} (backend : Backend) (requestUrl requestJsonData : String) :
    Call ε String :=
  if requestUrl = "/symbolicate/v5-legacy" then
    SymbolicateV5.queryApiJson backend requestJsonData false
  else if requestUrl = "/symbolicate/v5" then
    SymbolicateV5.queryApiJson backend requestJsonData true
  else if requestUrl = "/source/v1" then Source.queryApiJson backend requestJsonData
  else .ok (Serde.print (errorJson ("Unrecognized URL " ++ requestUrl)))

end Queries

/-! ## What a client makes of an answer -/

inductive Answer where
  | error (message : String)
  | symbolicated (results : List ReportedResult)
  | source (response : Source.Response)

/-- A text, if there is one. -/
def Source.readStringOrNull : Json → Option (Option String)
  | .null => some none
  | .string s => some (some s)
  | _ => none

def Source.readResponse (members : List (String × Json)) : Option Source.Response := do
  let symbolsLastModified ← members.lookup "symbolsLastModified" >>= Source.readStringOrNull
  let sourceLastModified ← members.lookup "sourceLastModified" >>= Source.readStringOrNull
  let file ← members.lookup "file" >>= Json.string?
  let source ← members.lookup "source" >>= Json.string?
  return ⟨symbolsLastModified, sourceLastModified, file, source⟩

/-- An answer says of itself what it is. -/
def readAnswer (j : Json) : Option Answer := do
  let members ← j.members?
  match members.lookup "error" with
  | some message => Answer.error <$> message.string?
  | none =>
      match members.lookup "results" with
      | some _ => Answer.symbolicated <$> SymbolicateV5.readResponse j
      | none => Answer.source <$> Source.readResponse members

/-- The text says this: it is a plain value that a client reads so. -/
def Says [Serde] (text : String) (a : Answer) : Prop :=
  ∃ j : Json, text = Serde.print j ∧ j.Plain ∧ readAnswer j = some a

theorem says_error [Serde] (message : String) :
    Says (Serde.print (errorJson message)) (.error message) := by
  refine ⟨_, rfl, .object (by simp) (fun m hm => ?_), rfl⟩
  rw [List.mem_singleton.mp hm]
  exact .string _

theorem says_symbolicated [Serde] (orders : Nat → MapOrders) (response : SymbolicateV5.Response) :
    Says (Serde.print (response.toJson orders)) (.symbolicated response.reported) := by
  refine ⟨_, rfl, plain_response orders response, ?_⟩
  show Answer.symbolicated <$> SymbolicateV5.readResponse (response.toJson orders) = _
  rw [readResponse_toJson]
  rfl

theorem Source.plain_stringOrNull (s : Option String) : (stringOrNull s).Plain := by
  cases s with
  | none => exact .null
  | some s => exact .string s

theorem Source.readStringOrNull_stringOrNull (s : Option String) :
    readStringOrNull (stringOrNull s) = some s := by
  cases s <;> rfl

theorem says_source [Serde] (response : Source.Response) :
    Says (Serde.print response.toJson) (.source response) := by
  refine ⟨_, rfl, .object (by simp) (fun m hm => ?_), ?_⟩
  · simp only [List.mem_cons, List.not_mem_nil, or_false] at hm
    rcases hm with rfl | rfl | rfl | rfl
    · exact Source.plain_stringOrNull _
    · exact Source.plain_stringOrNull _
    · exact .string _
    · exact .string _
  · show Answer.source <$> (do
      let symbolsLastModified ← Source.readStringOrNull
        (Source.stringOrNull response.symbolsLastModified)
      let sourceLastModified ← Source.readStringOrNull
        (Source.stringOrNull response.sourceLastModified)
      return (⟨symbolsLastModified, sourceLastModified, response.file, response.source⟩ :
        Source.Response)) = _
    rw [Source.readStringOrNull_stringOrNull, Source.readStringOrNull_stringOrNull]
    rfl

/-! ## What the answer should be -/

section Answers

variable [Serde] [Platform] [Crates] {ε : Type}

/-- The answer in the terms of a response. -/
def reportOrError {β : Type} (report : β → Answer) (response : Call String β) : Call ε Answer := do
  match ← response.attempt with
  | .ok response => return report response
  | .error message => return .error message

/-- The answer of `/symbolicate/v5` and its legacy form. -/
def Backend.symbolicated (backend : Backend) (requestJson : String) (withDebugInfo : Bool) :
    Call ε Answer :=
  match requestOfText requestJson with
  | none => .ok (.error ("Couldn't parse request: " ++ Serde.requestError requestJson))
  | some request => reportOrError (fun response => .symbolicated response.reported)
      ((SymbolicateV5.queryApi backend.orders backend.lookUp request withDebugInfo).mapErr
        (·.message))

/-- The answer of `/source/v1`. -/
def Backend.source (backend : Backend) (requestJson : String) : Call ε Answer :=
  match Source.requestOfText requestJson with
  | none => .ok (.error ("Couldn't parse request: " ++ Serde.sourceRequestError requestJson))
  | some request => reportOrError .source
      ((Source.answer backend.helper backend.getFrames request).mapErr (·.message))

/-- The answer to any URL. -/
def Backend.answer (backend : Backend) (requestUrl requestJsonData : String) : Call ε Answer :=
  if requestUrl = "/symbolicate/v5" then backend.symbolicated requestJsonData true
  else if requestUrl = "/symbolicate/v5-legacy" then backend.symbolicated requestJsonData false
  else if requestUrl = "/source/v1" then backend.source requestJsonData
  else .ok (.error ("Unrecognized URL " ++ requestUrl))

/-- Two calls end alike: with related answers, in the same panic, or not at all. -/
inductive EndsAlike {α β : Type} (r : α → β → Prop) : Call ε α → Call ε β → Prop
  | ok {a : α} {b : β} (h : r a b) : EndsAlike r (.ok a) (.ok b)
  | panic (site : Panic) : EndsAlike r (.panic site) (.panic site)
  | unfinished : EndsAlike r .unfinished .unfinished

omit [Platform] [Crates] in
theorem endsAlike_textOrError {β : Type} {print : β → String} {report : β → Answer}
    (h : ∀ b, Says (print b) (report b)) (response : Call String β) :
    EndsAlike (ε := ε) Says (textOrError (response >>= fun b => .ok (print b)))
      (reportOrError report response) := by
  cases response with
  | ok b => exact .ok (h b)
  | err message => exact .ok (says_error message)
  | panic site => exact .panic site
  | unfinished => exact .unfinished

/-- **EVERY QUERY IS ANSWERED** with a text that says what the API answers in its own
    terms, whatever the URL and the text of the request are. -/
theorem queryApi_saysAnswer (backend : Backend) (requestUrl requestJsonData : String) :
    EndsAlike (ε := Empty) Says (queryApi backend requestUrl requestJsonData)
      (backend.answer requestUrl requestJsonData) := by
  have hv5 : ∀ withDebugInfo, EndsAlike (ε := Empty) Says
      (SymbolicateV5.queryApiJson backend requestJsonData withDebugInfo)
      (backend.symbolicated requestJsonData withDebugInfo) := by
    intro withDebugInfo
    rw [SymbolicateV5.queryApiJson, SymbolicateV5.queryApiFallibleJson, Backend.symbolicated]
    cases requestOfText requestJsonData with
    | none => exact .ok (says_error _)
    | some request => exact endsAlike_textOrError (says_symbolicated backend.mapOrders) _
  have hsource : EndsAlike (ε := Empty) Says (Source.queryApiJson backend requestJsonData)
      (backend.source requestJsonData) := by
    rw [Source.queryApiJson, Source.queryApiFallibleJson, Backend.source]
    cases Source.requestOfText requestJsonData with
    | none => exact .ok (says_error _)
    | some request => exact endsAlike_textOrError says_source _
  rw [queryApi, Backend.answer]
  by_cases hlegacy : requestUrl = "/symbolicate/v5-legacy"
  · rw [if_pos hlegacy, if_neg (by rw [hlegacy]; decide), if_pos hlegacy]
    exact hv5 false
  · rw [if_neg hlegacy]
    by_cases hfull : requestUrl = "/symbolicate/v5"
    · rw [if_pos hfull, if_pos hfull]
      exact hv5 true
    · rw [if_neg hfull, if_neg hfull, if_neg hlegacy]
      split
      · exact hsource
      · exact .ok (says_error _)

end Answers

/-! ## From one API to the other -/

open ReportedFiles

/-- The request for a file that a client makes of a frame that it was shown. -/
def requestJsonFor (lib : Lib) (shown : Response.StackFrame) (file : String) : Json :=
  .object [("debugName", .string lib.debugName), ("debugId", .string lib.breakpadId),
    ("moduleOffset", asHexString shown.moduleOffset), ("file", .string file)]

/-- The messages under which a file is refused. -/
def refusals : List String :=
  ["Don't have any debug info for the requested library",
    "The requested path is not present in the symbolication frames"]

section Journey

variable [Serde] [Platform] [Crates]

omit [Platform] [Crates] in
/-- The offset that one API writes is read by the other. -/
theorem fromJson_requestJsonFor
    (hhex : ∀ n < 2 ^ 32, Serde.compactHex ("0x" ++ lowerHex n) = some (UInt32.ofNat n))
    (lib : Lib) {shown : Response.StackFrame} {address : UInt32}
    (haddress : shown.moduleOffset = address.toNat) (file : String) :
    Source.Request.fromJson (requestJsonFor lib shown file)
      = some (requestFor lib address file) := by
  show (do
    let moduleOffset ← Serde.compactHex ("0x" ++ lowerHex shown.moduleOffset)
    return (⟨lib.debugName, lib.breakpadId, moduleOffset, file⟩ : Source.Request)) = _
  rw [haddress, hhex _ address.toNat_lt, UInt32.ofNat_toNat]
  rfl

omit [Serde] in
/-- Only a refusal has one of these messages. -/
theorem message_mem_refusals {error : Source.SourceError} :
    error.message ∈ refusals ↔ error = .noDebugInfo ∨ error = .invalidPath := by
  -- a message with a cause starts with a letter of its own
  have hstart : ∀ {start rest : String},
      (∀ message ∈ refusals, start.toList.head? ≠ message.toList.head?) → start.toList ≠ [] →
      start ++ rest ∉ refusals := by
    intro start rest hhead hne hmem
    refine hhead _ hmem ?_
    rw [String.toList_append, List.head?_append_of_ne_nil _ hne]
  cases error with
  | noDebugInfo => exact iff_of_true (List.mem_cons_self ..) (Or.inl rfl)
  | invalidPath => exact iff_of_true (List.mem_cons_of_mem _ (List.mem_cons_self ..)) (Or.inr rfl)
  | nonLocalSymbols =>
      have hmessage : Source.SourceError.message .nonLocalSymbols = "The symbol file came from a "
          ++ "non-local origin, so we cannot treat file paths in it as local." := by rfl
      refine iff_of_false ?_ (by simp)
      rw [hmessage]
      simp [refusals]
  | noSymbols error =>
      refine iff_of_false ?_ (by simp)
      show "Could not obtain symbols for the requested library: " ++ error.message ∉ refusals
      exact hstart (by simp [refusals]) (by simp)
  | fileAndPathHelperError error =>
      refine iff_of_false ?_ (by simp)
      show "An error occurred when reading the file: " ++ error ∉ refusals
      exact hstart (by simp [refusals]) (by simp)

/-- A request is refused with such a message, and nothing else is. -/
theorem refused_iff_source {backend : Backend} {requestJson : String} {request : Source.Request}
    (hrequest : Source.requestOfText requestJson = some request) {ε : Type} :
    Source.Refused backend.helper backend.getFrames request ↔
      ∃ message ∈ refusals, (backend.source requestJson : Call ε _) = .ok (.error message) := by
  have hsource : (backend.source requestJson : Call ε _) = reportOrError .source
      ((Source.answer backend.helper backend.getFrames request).mapErr (·.message)) := by
    rw [Backend.source, hrequest]
  rw [hsource, Source.Refused]
  generalize Source.answer backend.helper backend.getFrames request = answer
  cases answer with
  | ok response =>
      refine iff_of_false (by simp) ?_
      rintro ⟨message, -, h⟩
      cases h
  | panic site =>
      refine iff_of_false (by simp) ?_
      rintro ⟨message, -, h⟩
      cases h
  | unfinished =>
      refine iff_of_false (by simp) ?_
      rintro ⟨message, -, h⟩
      cases h
  | err error =>
      rw [Outcome.err.injEq, Outcome.err.injEq, ← message_mem_refusals]
      constructor
      · exact fun h => ⟨_, h, rfl⟩
      · rintro ⟨message, hmem, h⟩
        obtain rfl : error.message = message := Answer.error.inj (Outcome.ok.inj h)
        exact hmem

omit [Serde] [Crates] in
theorem debugInfo_of_ne_nil {frames : List InlineStackFrame} (h : frames ≠ []) {ε : Type} :
    (debugInfo frames : Call ε _) = .ok (expectedDebugInfo frames) := by
  obtain ⟨outer, houter⟩ := Option.isSome_iff_exists.mp (List.getLast?_isSome.mpr h)
  rw [debugInfo, expectedDebugInfo, houter]
  rfl

omit [Serde] [Platform] [Crates] in
/-- What is left out of a text shows no file. -/
theorem reportedFiles_reported (frame : Response.StackFrame) :
    reportedFiles frame.reported = reportedFiles frame := by
  obtain ⟨frame, moduleOffset, module, symbol⟩ := frame
  cases symbol with
  | none => rfl
  | some symbol =>
      obtain ⟨function, functionOffset, functionSize, debugInfo⟩ := symbol
      cases debugInfo with
      | none => rfl
      | some info =>
          rw [reportedFiles, Response.StackFrame.reported, Option.map_some, Option.bind_some,
            Response.Symbol.reported, Option.bind_some, Response.DebugInfo.reported]
          by_cases hempty : info = ⟨none, none, []⟩
          · rw [if_pos hempty, hempty]
            rfl
          · rw [if_neg hempty]
            rfl

omit [Serde] [Crates] in
/-- The files that the answer to a frame shows, by the slot of its address. -/
theorem mem_reportedFiles_expectedFrame {index : Nat → Nat}
    {answer : Lib → Except GetSymbolsError LookedUpAddresses} {job : Request.Job}
    {frame : Request.StackFrame} {lib : Lib} {table : LookedUpAddresses}
    (hlib : job.memoryMap[frame.moduleIndex.toNat]? = some lib) (htable : answer lib = .ok table)
    (hframes : ∀ frames, heldFrames table frame.address.toNat = some frames → frames ≠ [])
    (n : Nat) (file : String) :
    file ∈ reportedFiles (expectedFrame index answer job (frame, n)) ↔
      ∃ frames, heldFrames table frame.address.toNat = some frames ∧
        ∃ filePath ∈ filePaths frames, filePath.mappedPath = file := by
  have hinfo : (expectedFrame index answer job (frame, n)).symbol.bind (·.debugInfo)
      = (heldFrames table frame.address.toNat).map expectedDebugInfo := by
    show ((job.memoryMap[frame.moduleIndex.toNat]?).bind _).bind _ = _
    rw [hlib, Option.bind_some, htable, held, heldFrames]
    cases (table.addressResults.get? frame.address.toNat).join with
    | none => rfl
    | some result => rfl
  rw [reportedFiles, hinfo]
  cases hheld : heldFrames table frame.address.toNat with
  | none => simp
  | some frames =>
      refine (mem_files_of_debugInfo (ε := Empty)
        (debugInfo_of_ne_nil (hframes frames hheld)) file).trans ?_
      simp

/-- **FROM ONE API TO THE OTHER**: a client that symbolicates a request and asks for
    a file with what it was shown of a frame is refused exactly the files that the
    frame does not show. -/
theorem answer_handsOver (backend : Backend)
    (hhex : ∀ n < 2 ^ 32, Serde.compactHex ("0x" ++ lowerHex n) = some (UInt32.ofNat n))
    (requestJson : String) (request : Request) (hrequest : requestOfText requestJson = some request)
    (answer : Lib → Except GetSymbolsError LookedUpAddresses) (hindex : IndicesValid request)
    (hlooks : Looks backend.lookUp true request answer)
    (hlibs : ∀ job ∈ request.jobs, job.memoryMap.length ≤ 2 ^ 32)
    (i k n : Nat) (job : Request.Job) (hjob : request.jobs[i]? = some job)
    (stack : List Request.StackFrame) (hstack : job.callStacks[k]? = some stack)
    (frame : Request.StackFrame) (hframe : stack[n]? = some frame)
    (lib : Lib) (hlib : job.memoryMap[frame.moduleIndex.toNat]? = some lib)
    (table : LookedUpAddresses) (htable : answer lib = .ok table) (calls : List ResultCall)
    (hsame : SameSymbolication backend.lookUp backend.getFrames lib (askedAddresses request lib)
      frame.address.toNat calls) :
    ∃ results shown,
      (backend.answer "/symbolicate/v5" requestJson : Call Empty _) = .ok (.symbolicated results) ∧
      (results[i]?.bind (·.callStacks[k]?)).bind (·[n]?) = some shown ∧
      ∀ file sourceJson, Serde.parse sourceJson = some (requestJsonFor lib shown file) →
        (file ∈ reportedFiles shown ↔ ¬ ∃ message ∈ refusals,
          (backend.answer "/source/v1" sourceJson : Call Empty _) = .ok (.error message)) := by
  obtain ⟨response, hresponse, hstacks⟩ := queryApi_eq backend.orders hindex hlooks hlibs
  refine ⟨response.reported, (expectedFrame asU32 answer job (frame, n)).reported, ?_, ?_, ?_⟩
  · rw [Backend.answer, if_pos rfl, Backend.symbolicated, hrequest]
    show reportOrError _ ((SymbolicateV5.queryApi _ _ _ _).mapErr _) = _
    rw [hresponse]
    rfl
  · have hresults : (response.results.map (·.callStacks))[i]? = some (job.callStacks.map
        (fun stack => stack.zipIdx.map (expectedFrame asU32 answer job))) := by
      rw [hstacks, expectedStacks, List.getElem?_map, hjob]
      rfl
    rw [List.getElem?_map] at hresults
    obtain ⟨result, hresult, hcallStacks⟩ := Option.map_eq_some_iff.mp hresults
    rw [SymbolicateV5.Response.reported, List.getElem?_map, hresult]
    show (((result.callStacks.map (·.map (·.reported)))[k]?).bind (·[n]?)) = _
    rw [hcallStacks, List.map_map, List.getElem?_map, hstack]
    show ((stack.zipIdx.map _).map _)[n]? = _
    rw [List.map_map, List.getElem?_map, List.getElem?_zipIdx, hframe, Nat.zero_add]
    rfl
  · -- the two symbolications leave the same frames behind
    have hasks : Asks request lib frame.address.toNat := mem_askedAddresses.mp hsame.asked
    have hlookup := hlooks.lookUp lib ⟨_, hasks⟩
    rw [htable] at hlookup
    obtain ⟨debugId, hid, hlookup⟩ := Outcome.bind_eq_ok.mp (Outcome.attempt_eq_ok_ok.mp hlookup)
    have hreplay := (hsame.addresses debugId hid).symm.trans hlookup
    have hasked := mem_sortAndDedup.mpr hsame.asked
    obtain ⟨-, hsource⟩ := replay_sameFrames hsame.inOrder hasked hreplay
    have hframes := (hsame.frames debugId hid).trans hsource
    intro file sourceJson hparse
    -- what the client copies from the frame is read back as its library and offset
    have hdecoded : Source.requestOfText sourceJson = some (requestFor lib frame.address file) := by
      rw [Source.requestOfText, hparse]
      exact fromJson_requestJsonFor hhex lib rfl file
    have hurl : (backend.answer "/source/v1" sourceJson : Call Empty _)
        = backend.source sourceJson := by
      rw [Backend.answer, if_neg (by decide), if_neg (by decide), if_pos rfl]
    rw [hurl, ← refused_iff_source hdecoded, reportedFiles_reported, mem_reportedFiles_expectedFrame
      hlib htable (fun _ h => heldFrames_ne_nil hsame.inOrder hasked hreplay h)]
    exact (not_refused_of_frames backend.helper (requestFor lib frame.address file) hid
      hframes).symm

end Journey

section Samples

local instance unixPlatform : Platform := Paths.unix

local instance breakpadCrates : Crates := sampleCrates

/-- One stack with two frames in library `a`, its records by position. -/
def twoFramesJson : Json :=
  .object [("memoryMap", .array [.array [.string "a", .string libA.breakpadId]]),
    ("stacks", .array [.array [.array [.nat 0, .nat 7], .array [.nat 0, .nat 5]]])]

def twoFramesText : String :=
  "\x7b\"memoryMap\":[[\"a\",\"AAAAAAAAAAAAAAAAAAAAAAAAAAAAAAAA0\"]],\"stacks\":[[[0,7],[0,5]]]\x7d"

def twoFrames : SymbolicateV5.Request := .justOneJob ⟨[libA], [[⟨0, 7⟩, ⟨0, 5⟩]]⟩

/-- The request for the file of the inlined function in it. -/
def innerFileJson : Json :=
  .object [("debugName", .string "a"), ("debugId", .string libA.breakpadId), ("moduleOffset", .string "0x5"),
    ("file", .string "git:inner.c")]

def innerFileText : String :=
  "\x7b\"debugName\":\"a\",\"debugId\":\"AAAAAAAAAAAAAAAAAAAAAAAAAAAAAAAA0\",\"moduleOffset\":\"0x5\"," ++
    "\"file\":\"git:inner.c\"\x7d"

mutual

/-- The text of a value whose strings need no escapes. -/
def compact : Json → String
  | .null => "null"
  | .bool b => toString b
  | .number (.natural n) => toString n
  | .number (.negative n) => "-" ++ toString n
  | .number (.decimal text) => text
  | .string s => "\"" ++ s ++ "\""
  | .array elems => "[" ++ ",".intercalate (compactElems elems) ++ "]"
  | .object members => "\x7b" ++ ",".intercalate (compactMembers members) ++ "\x7d"

def compactElems : List Json → List String
  | [] => []
  | j :: elems => compact j :: compactElems elems

def compactMembers : List (String × Json) → List String
  | [] => []
  | (name, j) :: members => ("\"" ++ name ++ "\":" ++ compact j) :: compactMembers members

end

/-- It knows two texts. -/
local instance sampleSerde : Serde where
  parse text :=
    if text = twoFramesText then some twoFramesJson
    else if text = innerFileText then some innerFileJson else none
  print := compact
  requestError _ := "expected value at line 1 column 1"
  sourceRequestError _ := "expected value at line 1 column 1"
  compactHex text := do
    let n ← readHexString (.string text)
    if n < 2 ^ 32 then some (UInt32.ofNat n) else none

def sampleBackend : Backend where
  helper := sampleHelper
  lookUp _ := replay [5, 7] sampleCalls
  getFrames _ := replay [5] (callsFor 5 sampleCalls)
  orders := .listed
  mapOrders _ := ⟨.listed _, .listed _⟩

theorem asks_twoFrames {lib : Lib} {address : Nat} (h : Asks twoFrames lib address) : lib = libA := by
  obtain ⟨job, hjob, frame, -, hlib, -⟩ := h
  obtain rfl := List.mem_singleton.mp hjob
  exact List.mem_singleton.mp (List.mem_of_getElem? hlib)

theorem looks_twoFrames :
    Looks sampleBackend.lookUp true twoFrames (fun _ => .ok sampleTable) where
  lookUp lib hlib := by
    obtain ⟨address, hasks⟩ := hlib
    obtain rfl := asks_twoFrames hasks
    rfl
  built lib table hlib hanswer := by
    obtain rfl : sampleTable = table := Except.ok.inj hanswer
    obtain ⟨address, hasks⟩ := hlib
    obtain rfl := asks_twoFrames hasks
    have hasked : sortAndDedup (askedAddresses twoFrames libA) = [5, 7] := by decide
    rw [hasked]
    have hf : BuiltFor [5, 7] _ := .addAddressSymbol (.setTotalSymbolCount 2 .forAddresses)
      (show 5 ∈ [5, 7] by decide) (show 2 ≤ 5 by decide)
      (show LookedUpAddresses.addAddressSymbol _ 5 2 "f" none = .ok _ from rfl)
    have hg : BuiltFor [5, 7] _ := .addAddressSymbol hf (show 7 ∈ [5, 7] by decide)
      (show 6 ≤ 7 by decide)
      (show LookedUpAddresses.addAddressSymbol _ 7 6 "g" none = .ok _ from rfl)
    exact .addAddressDebugInfo hg (show 5 ∈ [5, 7] by decide) (show sampleFrames ≠ [] by
      simp [sampleFrames]) (show LookedUpAddresses.addAddressDebugInfo _ 5 ⟨sampleFrames⟩ = .ok _
      from rfl)

theorem compactHex_sampleSerde (n : Nat) (h : n < 2 ^ 32) :
    Serde.compactHex ("0x" ++ lowerHex n) = some (UInt32.ofNat n) := by
  show (readHexString (asHexString n) >>= fun n =>
    if n < 2 ^ 32 then some (UInt32.ofNat n) else none) = _
  rw [readHexString_asHexString]
  exact if_pos h

theorem answer_handsOver_two_frames :
    ∃ results shown, (sampleBackend.answer "/symbolicate/v5" twoFramesText : Call Empty _)
        = .ok (.symbolicated results) ∧
      (results[0]?.bind (·.callStacks[0]?)).bind (·[1]?) = some shown ∧
      ∀ file sourceJson, Serde.parse sourceJson = some (requestJsonFor libA shown file) →
        (file ∈ reportedFiles shown ↔ ¬ ∃ message ∈ refusals,
          (sampleBackend.answer "/source/v1" sourceJson : Call Empty _) = .ok (.error message)) :=
  answer_handsOver sampleBackend compactHex_sampleSerde twoFramesText twoFrames rfl (fun _ => .ok sampleTable)
    (by decide) looks_twoFrames (by decide) 0 0 1 _ rfl _ rfl ⟨0, 5⟩ rfl libA rfl sampleTable rfl
    sampleCalls sameSymbolication_sampleCalls

end Samples

end ProfilerGetSymbols
