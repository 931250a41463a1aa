import ProfilerGetSymbols.SymbolicateV5
import ProfilerGetSymbols.ProgLib.Json

/-! # Responses as JSON — what a client reads back

    A response is written with derived serializers: absent options and empty lists
    are left out, the symbol and the debug info of a frame are spread over the
    frame's own object, and the two maps of a job come in any order.

    `readResponse` is what a client makes of the text.  It reads back everything
    that was written but one thing: debug info without a file, a line and inlines
    leaves no trace. -/

namespace ProfilerGetSymbols.SymbolicateV5

open ProgLib

/-! ## Writing -/

/-- `as_hex_string`. -/
def asHexString (n : Nat) : Json := .string ("0x" ++ lowerHex n)

/-- The list, `skip_serializing_if = "Vec::is_empty"`. -/
def unlessEmpty {α : Type} (l : List α) : Option (List α) := if l.isEmpty then none else some l

/-- The iteration orders of the maps of one result. -/
structure MapOrders where
  foundModules : IterOrder (String × Bool)
  moduleErrors : IterOrder (String × List Response.Error)

namespace Response

def InlineStackFrame.toJson (frame : InlineStackFrame) : Json :=
  .object (Json.optional "function" .string frame.function
    ++ Json.optional "file" .string frame.file ++ Json.optional "line" .nat frame.line)

def DebugInfo.members (info : DebugInfo) : List (String × Json) :=
  Json.optional "file" .string info.file ++ Json.optional "line" .nat info.line
    ++ Json.optional "inlines" (fun l => .array (l.map InlineStackFrame.toJson))
      (unlessEmpty info.inlines)

def Symbol.members (symbol : Symbol) : List (String × Json) :=
  [("function", .string symbol.function), ("function_offset", asHexString symbol.functionOffset)]
    ++ Json.optional "function_size" asHexString symbol.functionSize
    ++ symbol.debugInfo.elim [] DebugInfo.members

def StackFrame.toJson (frame : StackFrame) : Json :=
  .object ([("frame", .nat frame.frame), ("module_offset", asHexString frame.moduleOffset),
    ("module", .string frame.module)] ++ frame.symbol.elim [] Symbol.members)

/-- `filename` and `line` are always `None`, and left out. -/
def Error.toJson (error : Error) : Json :=
  .object [("name", .string error.name), ("message", .string error.message)]

/-- The stacks of a result, each the list of its frames. -/
def stacksToJson (callStacks : List (List StackFrame)) : Json :=
  .array (callStacks.map (fun stack => .array (stack.map StackFrame.toJson)))

def foundModulesToJson (entries : List (String × Bool)) : Json :=
  .object (entries.map (fun e => (e.1, .bool e.2)))

def moduleErrorsToJson (entries : List (String × List Error)) : Json :=
  .object (entries.map (fun e => (e.1, .array (e.2.map Error.toJson))))

def Result.members (orders : MapOrders) (result : Result) : List (String × Json) :=
  [("stacks", stacksToJson result.callStacks),
    ("found_modules", foundModulesToJson (orders.foundModules.order result.foundModules.entries))]
    ++ Json.optional "module_errors"
      (fun entries => moduleErrorsToJson (orders.moduleErrors.order entries))
      (unlessEmpty result.moduleErrors.entries)

def Result.toJson (orders : MapOrders) (result : Result) : Json := .object (result.members orders)

end Response

/-- The maps of the n-th result are written in the n-th orders. -/
def Response.toJson (orders : Nat → MapOrders) (response : Response) : Json :=
  .object [("results", .array (response.results.zipIdx.map (fun e => e.1.toJson (orders e.2))))]

/-! ## Reading -/

/-- The value of a hexadecimal digit. -/
def hexDigitValue (c : Char) : Option Nat :=
  if '0' ≤ c ∧ c ≤ '9' then some (c.toNat - '0'.toNat)
  else if 'a' ≤ c ∧ c ≤ 'f' then some (c.toNat - 'a'.toNat + 10)
  else none

/-- The digits of a number, the first of them counting most. -/
def readHexDigits (n : Nat) : List Char → Option Nat
  | [] => some n
  | c :: cs => do
      let digit ← hexDigitValue c
      readHexDigits (16 * n + digit) cs

/-- A number as a text that starts with `0x`. -/
def readHexString (j : Json) : Option Nat := do
  match (← j.string?).toList with
  | '0' :: 'x' :: digits => readHexDigits 0 digits
  | _ => none

/-- What a result reports. -/
structure ReportedResult where
  callStacks : List (List Response.StackFrame)
  foundModules : String → Option Bool
  moduleErrors : String → Option (List Response.Error)

def readInlineStackFrame (j : Json) : Option Response.InlineStackFrame := do
  let members ← j.members?
  let function ← Json.optional? "function" Json.string? members
  let file ← Json.optional? "file" Json.string? members
  let line ← Json.optional? "line" Json.nat? members
  return ⟨function, file, line⟩

/-- Debug info, if one of its members is there. -/
def readDebugInfo (members : List (String × Json)) : Option (Option Response.DebugInfo) := do
  let file ← Json.optional? "file" Json.string? members
  let line ← Json.optional? "line" Json.nat? members
  let inlines ← Json.optional? "inlines" (Json.list? readInlineStackFrame) members
  if file.isNone ∧ line.isNone ∧ inlines.isNone then return none
  else return some ⟨file, line, inlines.getD []⟩

/-- A symbol, if a function is named. -/
def readSymbol (members : List (String × Json)) : Option (Option Response.Symbol) :=
  match members.lookup "function" with
  | none => some none
  | some function => do
      let function ← function.string?
      let functionOffset ← members.lookup "function_offset" >>= readHexString
      let functionSize ← Json.optional? "function_size" readHexString members
      let debugInfo ← readDebugInfo members
      return some ⟨function, functionOffset, functionSize, debugInfo⟩

def readStackFrame (j : Json) : Option Response.StackFrame := do
  let members ← j.members?
  let frame ← members.lookup "frame" >>= Json.nat?
  let moduleOffset ← members.lookup "module_offset" >>= readHexString
  let module ← members.lookup "module" >>= Json.string?
  let symbol ← readSymbol members
  return ⟨frame, moduleOffset, module, symbol⟩

def readError (j : Json) : Option Response.Error := do
  let members ← j.members?
  let name ← members.lookup "name" >>= Json.string?
  let message ← members.lookup "message" >>= Json.string?
  return ⟨name, message⟩

def readResult (j : Json) : Option ReportedResult := do
  let members ← j.members?
  let callStacks ← members.lookup "stacks" >>= Json.list? (Json.list? readStackFrame)
  let foundModules ← members.lookup "found_modules" >>= Json.table? Json.bool?
  let moduleErrors ← Json.optional? "module_errors" (Json.table? (Json.list? readError)) members
  return ⟨callStacks, (foundModules.lookup ·), ((moduleErrors.getD []).lookup ·)⟩

def readResponse (j : Json) : Option (List ReportedResult) := do
  let members ← j.members?
  members.lookup "results" >>= Json.list? readResult

/-! ## What is reported -/

/-- The debug info that a text shows: none if there is nothing in it. -/
def Response.DebugInfo.reported (info : Response.DebugInfo) : Option Response.DebugInfo :=
  if info = ⟨none, none, []⟩ then none else some info

def Response.Symbol.reported (symbol : Response.Symbol) : Response.Symbol :=
  { symbol with debugInfo := symbol.debugInfo.bind (·.reported) }

def Response.StackFrame.reported (frame : Response.StackFrame) : Response.StackFrame :=
  { frame with symbol := frame.symbol.map (·.reported) }

def Response.Result.reported (result : Response.Result) : ReportedResult where
  callStacks := result.callStacks.map (·.map (·.reported))
  foundModules := result.foundModules.get?
  moduleErrors := result.moduleErrors.get?

def Response.reported (response : Response) : List ReportedResult :=
  response.results.map (·.reported)

/-! ## Hexadecimal numbers -/

theorem hexDigitValue_digitChar : ∀ d < 16, hexDigitValue d.digitChar = some d := by decide

theorem readHexDigits_append (n : Nat) (cs cs' : List Char) :
    readHexDigits n (cs ++ cs') = readHexDigits n cs >>= fun m => readHexDigits m cs' := by
  induction cs generalizing n with
  | nil => rfl
  | cons c cs ih =>
      rw [List.cons_append, readHexDigits, readHexDigits]
      cases hexDigitValue c with
      | none => rfl
      | some d => exact ih _

theorem readHexDigits_toDigits (n : Nat) : readHexDigits 0 (Nat.toDigits 16 n) = some n := by
  induction n using Nat.strongRecOn with
  | ind n ih =>
      have hlast : ∀ m d, d < 16 → readHexDigits m [d.digitChar] = some (16 * m + d) := by
        intro m d hd
        rw [readHexDigits, hexDigitValue_digitChar d hd]
        rfl
      rw [Nat.toDigits_eq_if (by decide)]
      split
      · next hlt => rw [hlast 0 n hlt, Nat.mul_zero, Nat.zero_add]
      · next hge =>
          rw [readHexDigits_append, ih (n / 16) (by omega), Option.bind_eq_bind, Option.bind_some,
            hlast _ _ (Nat.mod_lt _ (by decide)), Nat.div_add_mod]

/-- **HEXADECIMAL NUMBERS** are read back. -/
theorem readHexString_asHexString (n : Nat) : readHexString (asHexString n) = some n := by
  have htext : ("0x" ++ lowerHex n).toList = '0' :: 'x' :: Nat.toDigits 16 n := by
    rw [lowerHex, String.toList_append, String.toList_ofList (l := Nat.toDigits 16 n)]
    rfl
  show (match ("0x" ++ lowerHex n).toList with
    | '0' :: 'x' :: digits => readHexDigits 0 digits
    | _ => none) = some n
  rw [htext]
  exact readHexDigits_toDigits n

/-! ## Round trips -/

section RoundTrip

open Response

theorem readInlineStackFrame_toJson (frame : Response.InlineStackFrame) :
    readInlineStackFrame frame.toJson = some frame := by
  have hfunction : (Json.optional "function" .string frame.function
      ++ Json.optional "file" .string frame.file ++ Json.optional "line" .nat frame.line).lookup
        "function" = frame.function.map .string := by
    simp (disch := decide) [List.lookup_append, Json.lookup_optional_self,
      Json.lookup_optional_of_ne]
  have hfile : (Json.optional "function" .string frame.function
      ++ Json.optional "file" .string frame.file ++ Json.optional "line" .nat frame.line).lookup
        "file" = frame.file.map .string := by
    simp (disch := decide) [List.lookup_append, Json.lookup_optional_self,
      Json.lookup_optional_of_ne]
  have hline : (Json.optional "function" .string frame.function
      ++ Json.optional "file" .string frame.file ++ Json.optional "line" .nat frame.line).lookup
        "line" = frame.line.map .nat := by
    simp (disch := decide) [List.lookup_append, Json.lookup_optional_self,
      Json.lookup_optional_of_ne]
  rw [readInlineStackFrame, InlineStackFrame.toJson, Json.members?, Option.bind_eq_bind,
    Option.bind_some, Json.optional?_of_lookup (f := id) hfunction (fun _ => rfl),
    Option.bind_eq_bind, Option.bind_some, Json.optional?_of_lookup (f := id) hfile (fun _ => rfl),
    Option.bind_eq_bind, Option.bind_some,
    Json.optional?_of_lookup (f := id) hline (fun _ => rfl)]
  simp

theorem unlessEmpty_getD {α : Type} (l : List α) : (unlessEmpty l).getD [] = l := by
  cases l <;> rfl

/-- Debug info is read from any members that look up as its own do. -/
theorem readDebugInfo_of_lookup {members : List (String × Json)} (info : Option DebugInfo)
    (h : ∀ name ∈ ["file", "line", "inlines"],
      members.lookup name = (info.elim [] DebugInfo.members).lookup name) :
    readDebugInfo members = some (info.bind (·.reported)) := by
  have hfile : members.lookup "file" = (info.bind (·.file)).map .string := by
    rw [h _ (by decide)]
    cases info with
    | none => rfl
    | some info =>
        simp (disch := decide) [DebugInfo.members, List.lookup_append, Json.lookup_optional_self,
          Json.lookup_optional_of_ne]
  have hline : members.lookup "line" = (info.bind (·.line)).map .nat := by
    rw [h _ (by decide)]
    cases info with
    | none => rfl
    | some info =>
        simp (disch := decide) [DebugInfo.members, List.lookup_append, Json.lookup_optional_self,
          Json.lookup_optional_of_ne]
  have hinlines : members.lookup "inlines" = (info.bind (fun info => unlessEmpty info.inlines)).map
      (fun l => .array (l.map InlineStackFrame.toJson)) := by
    rw [h _ (by decide)]
    cases info with
    | none => rfl
    | some info =>
        simp (disch := decide) [DebugInfo.members, List.lookup_append, Json.lookup_optional_self,
          Json.lookup_optional_of_ne]
  have hread : ∀ l : List Response.InlineStackFrame,
      (Json.array (l.map InlineStackFrame.toJson)).list? readInlineStackFrame = some l := by
    intro l
    rw [Json.list?_array (f := id) (fun frame _ => readInlineStackFrame_toJson frame), List.map_id]
  rw [readDebugInfo, Json.optional?_of_lookup (f := id) hfile (fun _ => rfl), Option.bind_eq_bind,
    Option.bind_some, Json.optional?_of_lookup (f := id) hline (fun _ => rfl), Option.bind_eq_bind,
    Option.bind_some, Json.optional?_of_lookup (f := id) hinlines hread, Option.bind_eq_bind,
    Option.bind_some, Option.map_id, Option.map_id, Option.map_id]
  cases info with
  | none => rfl
  | some info =>
      obtain ⟨file, line, inlines⟩ := info
      cases file with
      | some file => simp [DebugInfo.reported, unlessEmpty_getD]
      | none =>
          cases line with
          | some line => simp [DebugInfo.reported, unlessEmpty_getD]
          | none =>
              cases inlines with
              | nil => rfl
              | cons frame inlines => simp [DebugInfo.reported, unlessEmpty]

/-- A symbol is read from any members that look up as its own do. -/
theorem readSymbol_of_lookup {members : List (String × Json)} (symbol : Option Symbol)
    (h : ∀ name ∈ ["function", "function_offset", "function_size", "file", "line", "inlines"],
      members.lookup name = (symbol.elim [] Symbol.members).lookup name) :
    readSymbol members = some (symbol.map (·.reported)) := by
  cases symbol with
  | none =>
      rw [readSymbol, h _ (by decide)]
      rfl
  | some symbol =>
      have hsymbol : ∀ name, (Option.elim (some symbol) [] Symbol.members).lookup name
          = symbol.members.lookup name := fun _ => rfl
      have hsize : members.lookup "function_size" = symbol.functionSize.map asHexString := by
        rw [h _ (by decide), hsymbol, Symbol.members]
        cases symbol.debugInfo <;>
          simp (disch := decide) [DebugInfo.members, List.lookup_append, Json.lookup_cons_of_ne,
            Json.lookup_optional_self, Json.lookup_optional_of_ne]
      have hinfo : ∀ name ∈ ["file", "line", "inlines"],
          members.lookup name = (symbol.debugInfo.elim [] DebugInfo.members).lookup name := by
        intro name hname
        have hne : name ≠ "function" ∧ name ≠ "function_offset" ∧ name ≠ "function_size" := by
          simp only [List.mem_cons, List.not_mem_nil, or_false] at hname
          rcases hname with rfl | rfl | rfl <;> decide
        rw [h _ (List.mem_cons_of_mem _ (List.mem_cons_of_mem _ (List.mem_cons_of_mem _ hname))),
          hsymbol, Symbol.members, List.lookup_append, List.lookup_append,
          Json.lookup_cons_of_ne hne.1, Json.lookup_cons_of_ne hne.2.1,
          Json.lookup_optional_of_ne hne.2.2]
        rfl
      rw [readSymbol, h _ (by decide), h "function_offset" (by decide)]
      show (do
        let functionOffset ← readHexString (asHexString symbol.functionOffset)
        let functionSize ← Json.optional? "function_size" readHexString members
        let debugInfo ← readDebugInfo members
        return some (⟨symbol.function, functionOffset, functionSize, debugInfo⟩ : Symbol)) = _
      rw [readHexString_asHexString, Option.bind_eq_bind, Option.bind_some,
        Json.optional?_of_lookup (f := id) hsize readHexString_asHexString, Option.bind_eq_bind,
        Option.bind_some, readDebugInfo_of_lookup _ hinfo, Option.map_id]
      rfl

theorem readStackFrame_toJson (frame : Response.StackFrame) :
    readStackFrame frame.toJson = some frame.reported := by
  have hsymbol : ∀ name ∈ ["function", "function_offset", "function_size", "file", "line",
      "inlines"], ([("frame", .nat frame.frame), ("module_offset", asHexString frame.moduleOffset),
        ("module", .string frame.module)] ++ frame.symbol.elim [] Symbol.members).lookup name
          = (frame.symbol.elim [] Symbol.members).lookup name := by
    intro name hname
    have hne : name ≠ "frame" ∧ name ≠ "module_offset" ∧ name ≠ "module" := by
      simp only [List.mem_cons, List.not_mem_nil, or_false] at hname
      rcases hname with rfl | rfl | rfl | rfl | rfl | rfl <;> decide
    rw [List.lookup_append, Json.lookup_cons_of_ne hne.1, Json.lookup_cons_of_ne hne.2.1,
      Json.lookup_cons_of_ne hne.2.2]
    rfl
  rw [readStackFrame, StackFrame.toJson, Json.members?, Option.bind_eq_bind, Option.bind_some,
    readSymbol_of_lookup _ hsymbol]
  show (do
    let moduleOffset ← readHexString (asHexString frame.moduleOffset)
    return (⟨frame.frame, moduleOffset, frame.module, frame.symbol.map Symbol.reported⟩ :
      Response.StackFrame)) = _
  rw [readHexString_asHexString]
  rfl

theorem readError_toJson (error : Response.Error) : readError error.toJson = some error := rfl

theorem readStacks (callStacks : List (List Response.StackFrame)) :
    (stacksToJson callStacks).list? (Json.list? readStackFrame)
      = some (callStacks.map (·.map (·.reported))) :=
  Json.list?_array (fun _ _ => Json.list?_array (fun frame _ => readStackFrame_toJson frame))

theorem readFoundModules (entries : List (String × Bool)) :
    (foundModulesToJson entries).table? Json.bool? = some entries := by
  have hentries : entries.map (fun e => (e.1, id e.2)) = entries := List.map_id entries
  rw [foundModulesToJson, Json.table?_object .bool id (fun _ _ => rfl),
    hentries]

theorem readModuleErrors (entries : List (String × List Response.Error)) :
    (moduleErrorsToJson entries).table? (Json.list? readError) = some entries := by
  have herrors : ∀ errors : List Response.Error,
      (Json.array (errors.map Error.toJson)).list? readError = some (id errors) := by
    intro errors
    rw [Json.list?_array (f := id) (fun error _ => readError_toJson error), List.map_id]
    rfl
  have hentries : entries.map (fun e => (e.1, id e.2)) = entries := List.map_id entries
  rw [moduleErrorsToJson, Json.table?_object (fun errors => .array (errors.map Error.toJson)) id
    (fun e _ => herrors e.2), hentries]

/-- **ONE RESULT**, whatever the order of its maps. -/
theorem readResult_toJson (orders : MapOrders) (result : Result) :
    readResult (result.toJson orders) = some result.reported := by
  have hlookup : (result.members orders).lookup "module_errors"
      = (unlessEmpty result.moduleErrors.entries).map
        (fun entries => moduleErrorsToJson (orders.moduleErrors.order entries)) := by
    rw [Result.members, List.lookup_append, Json.lookup_cons_of_ne (by decide),
      Json.lookup_cons_of_ne (by decide), Json.lookup_optional_self]
    rfl
  have hfoundModules : ((orders.foundModules.order result.foundModules.entries).lookup ·)
      = result.foundModules.get? := funext (HashMap.lookup_order _ _)
  have hmoduleErrors : ((((unlessEmpty result.moduleErrors.entries).map
      orders.moduleErrors.order).getD []).lookup ·) = result.moduleErrors.get? := by
    funext key
    rw [← HashMap.lookup_order orders.moduleErrors]
    by_cases hempty : result.moduleErrors.entries = []
    · rw [hempty, (orders.moduleErrors.perm []).eq_nil]
      rfl
    · rw [unlessEmpty, if_neg (by simpa using hempty)]
      rfl
  rw [readResult, Result.toJson, Json.members?, Option.bind_eq_bind, Option.bind_some,
    Json.optional?_of_lookup hlookup (fun entries => readModuleErrors _)]
  show (do
    let callStacks ← (stacksToJson result.callStacks).list? (Json.list? readStackFrame)
    let foundModules ← (foundModulesToJson
      (orders.foundModules.order result.foundModules.entries)).table? Json.bool?
    return (⟨callStacks, (foundModules.lookup ·), ((((unlessEmpty
      result.moduleErrors.entries).map orders.moduleErrors.order).getD []).lookup ·)⟩ :
        ReportedResult)) = _
  rw [readStacks, readFoundModules, Option.bind_eq_bind, Option.bind_some, Option.bind_eq_bind,
    Option.bind_some, hfoundModules, hmoduleErrors]
  rfl

/-- **A RESPONSE IS READ BACK** as what it reports, in whatever order its maps are
    written. -/
theorem readResponse_toJson (orders : Nat → MapOrders) (response : Response) :
    readResponse (response.toJson orders) = some response.reported := by
  show (Json.array (response.results.zipIdx.map (fun e => e.1.toJson (orders e.2)))).list?
    readResult = _
  rw [Json.list?_array (f := fun e => e.1.reported)
    (fun e _ => readResult_toJson (orders e.2) e.1), Response.reported]
  congr 1
  conv_rhs => rw [← List.zipIdx_map_fst 0 response.results, List.map_map]
  rfl

/-! ## Plain values -/

theorem plain_inlineStackFrame (frame : Response.InlineStackFrame) : frame.toJson.Plain := by
  refine .of_sublist ["function", "file", "line"] ?_ (by decide) ?_
  · rw [List.map_append, List.map_append]
    exact ((Json.names_optional ..).append (Json.names_optional ..)).append (Json.names_optional ..)
  · intro m hm
    rcases List.mem_append.mp hm with hm | hm
    · rcases List.mem_append.mp hm with hm | hm
      · exact Json.plain_of_mem_optional .string hm
      · exact Json.plain_of_mem_optional .string hm
    · exact Json.plain_of_mem_optional (fun n => .nat n) hm

theorem names_debugInfo (info : DebugInfo) :
    (info.members.map (·.1)).Sublist ["file", "line", "inlines"] := by
  rw [DebugInfo.members, List.map_append, List.map_append]
  exact ((Json.names_optional ..).append (Json.names_optional ..)).append (Json.names_optional ..)

theorem plain_of_mem_debugInfo {info : DebugInfo} {m : String × Json} (hm : m ∈ info.members) :
    m.2.Plain := by
  rcases List.mem_append.mp hm with hm | hm
  · rcases List.mem_append.mp hm with hm | hm
    · exact Json.plain_of_mem_optional .string hm
    · exact Json.plain_of_mem_optional (fun n => .nat n) hm
  · exact Json.plain_of_mem_optional
      (fun l => .array_map (fun frame _ => plain_inlineStackFrame frame)) hm

theorem names_symbol (symbol : Symbol) : (symbol.members.map (·.1)).Sublist
    ["function", "function_offset", "function_size", "file", "line", "inlines"] := by
  have hinfo : ((symbol.debugInfo.elim [] DebugInfo.members).map (·.1)).Sublist
      ["file", "line", "inlines"] := by
    cases symbol.debugInfo with
    | none => exact List.nil_sublist _
    | some info => exact names_debugInfo info
  rw [Symbol.members, List.map_append, List.map_append]
  exact ((List.Sublist.refl ["function", "function_offset"]).append
    (Json.names_optional "function_size" _ _)).append hinfo

theorem plain_of_mem_symbol {symbol : Symbol} {m : String × Json} (hm : m ∈ symbol.members) :
    m.2.Plain := by
  rcases List.mem_append.mp hm with hm | hm
  · rcases List.mem_append.mp hm with hm | hm
    · simp only [List.mem_cons, List.not_mem_nil, or_false] at hm
      rcases hm with rfl | rfl
      · exact .string _
      · exact .string _
    · exact Json.plain_of_mem_optional (fun _ => .string _) hm
  · cases hinfo : symbol.debugInfo with
    | none =>
        rw [hinfo] at hm
        cases hm
    | some info =>
        rw [hinfo] at hm
        exact plain_of_mem_debugInfo hm

theorem plain_stackFrame (frame : Response.StackFrame) : frame.toJson.Plain := by
  refine .of_sublist (["frame", "module_offset", "module"] ++ ["function", "function_offset",
    "function_size", "file", "line", "inlines"]) ?_ (by decide) ?_
  · rw [List.map_append]
    refine (List.Sublist.refl _).append ?_
    cases frame.symbol with
    | none => exact List.nil_sublist _
    | some symbol => exact names_symbol symbol
  · intro m hm
    rcases List.mem_append.mp hm with hm | hm
    · simp only [List.mem_cons, List.not_mem_nil, or_false] at hm
      rcases hm with rfl | rfl | rfl
      · exact .nat _
      · exact .string _
      · exact .string _
    · cases hsymbol : frame.symbol with
      | none =>
          rw [hsymbol] at hm
          cases hm
      | some symbol =>
          rw [hsymbol] at hm
          exact plain_of_mem_symbol hm

theorem plain_error (error : Response.Error) : error.toJson.Plain := by
  refine .object (by simp) ?_
  intro m hm
  simp only [List.mem_cons, List.not_mem_nil, or_false] at hm
  rcases hm with rfl | rfl
  · exact .string _
  · exact .string _

theorem plain_result (orders : MapOrders) (result : Result) :
    (result.toJson orders).Plain := by
  refine .of_sublist (["stacks", "found_modules"] ++ ["module_errors"]) ?_ (by decide) ?_
  · rw [Result.members, List.map_append]
    exact (List.Sublist.refl _).append (Json.names_optional ..)
  · intro m hm
    rcases List.mem_append.mp hm with hm | hm
    · simp only [List.mem_cons, List.not_mem_nil, or_false] at hm
      rcases hm with rfl | rfl
      · exact .array_map (fun stack _ => .array_map (fun frame _ => plain_stackFrame frame))
      · refine .object ?_ ?_
        · rw [List.map_map]
          exact result.foundModules.nodup_keys_order orders.foundModules
        · intro m hm
          obtain ⟨e, -, rfl⟩ := List.mem_map.mp hm
          exact .bool _
    · cases hentries : unlessEmpty result.moduleErrors.entries with
      | none =>
          rw [hentries] at hm
          cases hm
      | some entries =>
          have heq : entries = result.moduleErrors.entries := by
            rw [← unlessEmpty_getD result.moduleErrors.entries, hentries]
            rfl
          rw [hentries] at hm
          rw [List.mem_singleton.mp hm, heq]
          refine .object ?_ ?_
          · rw [List.map_map]
            exact result.moduleErrors.nodup_keys_order orders.moduleErrors
          · intro m hm
            obtain ⟨e, -, rfl⟩ := List.mem_map.mp hm
            exact .array_map (fun error _ => plain_error error)

theorem plain_response (orders : Nat → MapOrders) (response : Response) :
    (response.toJson orders).Plain := by
  refine .object (by simp) (fun m hm => ?_)
  rw [List.mem_singleton.mp hm]
  exact .array_map (fun e _ => plain_result (orders e.2) e.1)

end RoundTrip

/-- **RESPONSES ROUND-TRIP**: they are plain values, and a client reads back what the
    response reports, in whatever order its maps are written. -/
theorem response_roundTrip (orders : Nat → MapOrders) (response : Response) :
    (response.toJson orders).Plain ∧
      readResponse (response.toJson orders) = some response.reported :=
  ⟨plain_response orders response, readResponse_toJson orders response⟩

end ProfilerGetSymbols.SymbolicateV5
