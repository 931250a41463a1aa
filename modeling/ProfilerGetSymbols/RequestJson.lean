import ProfilerGetSymbols.SymbolicateV5
import ProfilerGetSymbols.ProgLib.Json

/-! # Requests as JSON — which texts are read as which request

    A request is read with derived deserializers: a library and a frame are records
    of two fields, written by name or by position; a job is one too; and the whole
    is a list of jobs under `jobs` if it can be read as that, otherwise one job.

    `Spells` says without a reader what the JSON of a request looks like.  The
    reader accepts exactly that. -/

namespace ProfilerGetSymbols.SymbolicateV5

open ProgLib

/-! ## Reading -/

/-- `u32`: a natural number in range. -/
def readU32 (j : Json) : Option UInt32 := do
  let n ← j.nat?
  if n < 2 ^ 32 then some (UInt32.ofNat n) else none

def Lib.fromJson (j : Json) : Option Lib := do
  match ← Json.record? ["debug_name", "breakpad_id"] j with
  | [debugName, breakpadId] => return ⟨← debugName.string?, ← breakpadId.string?⟩
  | _ => none

namespace Request

def StackFrame.fromJson (j : Json) : Option StackFrame := do
  match ← Json.record? ["module_index", "address"] j with
  | [moduleIndex, address] => return ⟨← readU32 moduleIndex, ← readU32 address⟩
  | _ => none

/-- `rename_all = "camelCase"`. -/
def Job.fromJson (j : Json) : Option Job := do
  match ← Json.record? ["memoryMap", "stacks"] j with
  | [memoryMap, callStacks] =>
      return ⟨← memoryMap.list? Lib.fromJson, ← callStacks.list? (Json.list? StackFrame.fromJson)⟩
  | _ => none

/-- The fields of `WithJobsList`, by name only. -/
def jobsFromJson (j : Json) : Option (List Job) := do
  match ← Json.fields? ["jobs"] (← j.members?) with
  | [jobs] => jobs.list? Job.fromJson
  | _ => none

end Request

/-- `untagged`: the first variant that can be read. -/
def Request.fromJson (j : Json) : Option Request :=
  (Request.withJobsList <$> jobsFromJson j).or (Request.justOneJob <$> Job.fromJson j)

/-! ## What the JSON of a request looks like -/

/-- A library as JSON. -/
def Lib.Spells (lib : Lib) (j : Json) : Prop :=
  Json.IsRecord [("debug_name", .string lib.debugName), ("breakpad_id", .string lib.breakpadId)] j

namespace Request

def StackFrame.Spells (frame : StackFrame) (j : Json) : Prop :=
  Json.IsRecord
    [("module_index", .nat frame.moduleIndex.toNat), ("address", .nat frame.address.toNat)] j

/-- A stack as JSON: the array of its frames. -/
def SpellsStack (stack : List StackFrame) (j : Json) : Prop :=
  ∃ frames, j = .array frames ∧ List.Forall₂ StackFrame.Spells stack frames

def Job.Spells (job : Job) (j : Json) : Prop :=
  ∃ libs callStacks, List.Forall₂ Lib.Spells job.memoryMap libs ∧
    List.Forall₂ SpellsStack job.callStacks callStacks ∧
    Json.IsRecord [("memoryMap", .array libs), ("stacks", .array callStacks)] j

/-- An object with the jobs under `jobs`. -/
def SpellsJobs (jobs : List Job) (j : Json) : Prop :=
  ∃ elems members, j = .object members ∧ List.Forall₂ Job.Spells jobs elems ∧
    Json.Holds [("jobs", .array elems)] members

/-- A request as JSON; where both shapes fit, it is a list of jobs. -/
def Spells : Request → Json → Prop
  | .withJobsList jobs, j => SpellsJobs jobs j
  | .justOneJob job, j => job.Spells j ∧ ¬ ∃ jobs, SpellsJobs jobs j

end Request

/-! ## Both are the same -/

theorem readU32_eq_some {j : Json} {n : UInt32} : readU32 j = some n ↔ j = .nat n.toNat := by
  rw [readU32]
  constructor
  · intro h
    obtain ⟨m, hm, h⟩ := Option.bind_eq_some_iff.mp h
    split at h
    · next hlt =>
        rw [← Option.some.inj h, UInt32.toNat_ofNat_of_lt' hlt]
        exact Json.nat?_eq_some.mp hm
    · cases h
  · rintro rfl
    show (if n.toNat < 2 ^ 32 then some (UInt32.ofNat n.toNat) else none) = some n
    rw [if_pos n.toNat_lt, UInt32.ofNat_toNat]

/-- A list is read where the JSON is an array that spells it. -/
theorem list?_iff_spells {α : Type} {read : Json → Option α} {spells : α → Json → Prop}
    (h : ∀ j a, read j = some a ↔ spells a j) {j : Json} {l : List α} :
    j.list? read = some l ↔ ∃ elems, j = .array elems ∧ List.Forall₂ spells l elems := by
  have hswap : ∀ elems, List.Forall₂ (fun e a => read e = some a) elems l ↔
      List.Forall₂ spells l elems := by
    intro elems
    constructor
    · intro hl
      exact List.Forall₂.flip (hl.imp (fun e a he => (h e a).mp he))
    · intro hl
      exact List.Forall₂.flip (hl.imp (fun a e he => (h e a).mpr he))
  rw [Json.list?_eq_some]
  exact exists_congr (fun elems => and_congr_right (fun _ => hswap elems))

theorem Lib.fromJson_eq_some {j : Json} {lib : Lib} : Lib.fromJson j = some lib ↔ lib.Spells j := by
  rw [Lib.fromJson, Lib.Spells]
  constructor
  · intro h
    obtain ⟨values, hvalues, h⟩ := Option.bind_eq_some_iff.mp h
    obtain ⟨name, id, rfl, hrecord⟩ := (Json.record?_pair (by decide)).mp hvalues
    obtain ⟨debugName, hname, h⟩ := Option.bind_eq_some_iff.mp h
    obtain ⟨breakpadId, hid, h⟩ := Option.bind_eq_some_iff.mp h
    rw [← Option.some.inj h]
    rwa [Json.string?_eq_some.mp hname, Json.string?_eq_some.mp hid] at hrecord
  · intro h
    rw [(Json.record?_pair (by decide)).mpr ⟨_, _, rfl, h⟩]
    rfl

namespace Request

theorem StackFrame.fromJson_eq_some {j : Json} {frame : StackFrame} :
    StackFrame.fromJson j = some frame ↔ frame.Spells j := by
  rw [StackFrame.fromJson, StackFrame.Spells]
  constructor
  · intro h
    obtain ⟨values, hvalues, h⟩ := Option.bind_eq_some_iff.mp h
    obtain ⟨x, y, rfl, hrecord⟩ := (Json.record?_pair (by decide)).mp hvalues
    obtain ⟨moduleIndex, hindex, h⟩ := Option.bind_eq_some_iff.mp h
    obtain ⟨address, haddress, h⟩ := Option.bind_eq_some_iff.mp h
    rw [← Option.some.inj h]
    rwa [readU32_eq_some.mp hindex, readU32_eq_some.mp haddress] at hrecord
  · intro h
    rw [(Json.record?_pair (by decide)).mpr ⟨_, _, rfl, h⟩]
    show (do
      let moduleIndex ← readU32 (.nat frame.moduleIndex.toNat)
      let address ← readU32 (.nat frame.address.toNat)
      return (⟨moduleIndex, address⟩ : StackFrame)) = _
    rw [readU32_eq_some.mpr rfl, readU32_eq_some.mpr rfl]
    rfl

theorem Job.fromJson_eq_some {j : Json} {job : Job} : Job.fromJson j = some job ↔ job.Spells j := by
  have hlibs : ∀ {j l}, Json.list? Lib.fromJson j = some l ↔
      ∃ elems, j = .array elems ∧ List.Forall₂ Lib.Spells l elems :=
    list?_iff_spells (fun _ _ => Lib.fromJson_eq_some)
  have hstacks : ∀ {j l}, Json.list? (Json.list? StackFrame.fromJson) j = some l ↔
      ∃ elems, j = .array elems ∧ List.Forall₂ SpellsStack l elems :=
    list?_iff_spells (fun _ _ => list?_iff_spells (fun _ _ => StackFrame.fromJson_eq_some))
  rw [Job.fromJson]
  constructor
  · intro h
    obtain ⟨values, hvalues, h⟩ := Option.bind_eq_some_iff.mp h
    obtain ⟨x, y, rfl, hrecord⟩ := (Json.record?_pair (by decide)).mp hvalues
    obtain ⟨memoryMap, hmap, hrest⟩ := Option.bind_eq_some_iff.mp h
    obtain ⟨callStacks, hcalls, hjob⟩ := Option.bind_eq_some_iff.mp hrest
    rw [← Option.some.inj hjob]
    obtain ⟨libs, rfl, hspellsLibs⟩ := hlibs.mp hmap
    obtain ⟨elems, rfl, hspellsStacks⟩ := hstacks.mp hcalls
    exact ⟨libs, elems, hspellsLibs, hspellsStacks, hrecord⟩
  · rintro ⟨libs, elems, hspellsLibs, hspellsStacks, hrecord⟩
    rw [(Json.record?_pair (by decide)).mpr ⟨_, _, rfl, hrecord⟩]
    show (do
      let memoryMap ← (Json.array libs).list? Lib.fromJson
      let callStacks ← (Json.array elems).list? (Json.list? StackFrame.fromJson)
      return (⟨memoryMap, callStacks⟩ : Job)) = _
    rw [hlibs.mpr ⟨libs, rfl, hspellsLibs⟩, hstacks.mpr ⟨elems, rfl, hspellsStacks⟩]
    rfl

theorem jobsFromJson_eq_some {j : Json} {jobs : List Job} :
    jobsFromJson j = some jobs ↔ SpellsJobs jobs j := by
  have hjobs : ∀ {j l}, Json.list? Job.fromJson j = some l ↔
      ∃ elems, j = .array elems ∧ List.Forall₂ Job.Spells l elems :=
    list?_iff_spells (fun _ _ => Job.fromJson_eq_some)
  have hnames : ["jobs"].Nodup := by decide
  rw [jobsFromJson]
  constructor
  · intro h
    obtain ⟨members, hmembers, h⟩ := Option.bind_eq_some_iff.mp h
    obtain ⟨values, hvalues, h⟩ := Option.bind_eq_some_iff.mp h
    obtain ⟨hlen, hholds⟩ := (Json.fields?_eq_some hnames).mp hvalues
    obtain ⟨v, rfl⟩ := List.length_eq_one_iff.mp hlen
    obtain ⟨elems, rfl, hspells⟩ := hjobs.mp h
    exact ⟨elems, members, Json.members?_eq_some.mp hmembers, hspells, hholds⟩
  · rintro ⟨elems, members, rfl, hspells, hholds⟩
    have hfields : Json.fields? ["jobs"] members = some [.array elems] :=
      (Json.fields?_eq_some hnames).mpr ⟨rfl, hholds⟩
    show (Json.fields? ["jobs"] members >>= _) = _
    rw [hfields]
    exact hjobs.mpr ⟨elems, rfl, hspells⟩

end Request

/-- **REQUESTS ARE READ** from exactly the JSON that spells them. -/
theorem request_fromJson_iff (j : Json) (request : Request) :
    Request.fromJson j = some request ↔ request.Spells j := by
  rw [Request.fromJson, Option.or_eq_some_iff]
  cases request with
  | withJobsList jobs =>
      constructor
      · rintro (h | ⟨-, h⟩)
        · obtain ⟨jobs', hjobs, heq⟩ := Option.map_eq_some_iff.mp h
          rw [← Request.withJobsList.inj heq]
          exact Request.jobsFromJson_eq_some.mp hjobs
        · obtain ⟨job, -, heq⟩ := Option.map_eq_some_iff.mp h
          cases heq
      · intro h
        exact Or.inl (Option.map_eq_some_iff.mpr ⟨jobs, Request.jobsFromJson_eq_some.mpr h, rfl⟩)
  | justOneJob job =>
      constructor
      · rintro (h | ⟨hnone, h⟩)
        · obtain ⟨jobs, -, heq⟩ := Option.map_eq_some_iff.mp h
          cases heq
        · obtain ⟨job', hjob, heq⟩ := Option.map_eq_some_iff.mp h
          rw [← Request.justOneJob.inj heq]
          refine ⟨Request.Job.fromJson_eq_some.mp hjob, ?_⟩
          rintro ⟨jobs, hjobs⟩
          rw [Request.jobsFromJson_eq_some.mpr hjobs] at hnone
          cases hnone
      · rintro ⟨hjob, hnot⟩
        refine Or.inr ⟨?_, Option.map_eq_some_iff.mpr
          ⟨job, Request.Job.fromJson_eq_some.mpr hjob, rfl⟩⟩
        cases hjobs : Request.jobsFromJson j with
        | none => rfl
        | some jobs => exact absurd ⟨jobs, Request.jobsFromJson_eq_some.mp hjobs⟩ hnot

end ProfilerGetSymbols.SymbolicateV5
