import ProfilerGetSymbols.DebugSections
import ProfilerGetSymbols.HashOrder
import ProfilerGetSymbols.TraversalEnds

/-! # Readability — what a traversal takes to get through

    A file that cannot be opened is skipped.  Everything else that goes wrong on
    the way ends the traversal: a section that cannot be read, a name that
    cannot be demangled or is not UTF-8, an archive or an object that does not
    parse, and object files that refer to each other for ever.

    `ReadsThrough` follows the work that an object leads to and asks for each of
    these.  It is what the traversal takes, whatever the order of the hash maps
    (`answers_iff_readsThrough`): of two objects that name one archive member
    either can be the one that keeps its addresses, so both have to be readable. -/

namespace ProfilerGetSymbols

open ProgLib Paths

/-! ## One lookup -/

namespace Dwarf

open Demangle

section Lookup

variable [Crates]

/-- A symbol name is demangled without a panic. -/
def Demangles (name : String) : Prop :=
  ∃ demangled, (demangleAny name : Call GetSymbolsError String) = .ok demangled

/-- The debug info of an object can be read, as far as addresses are looked up in it. -/
structure LookupReadable (data : RangeReadRef) (obj : ObjectFile) (addresses : List AddressPair) :
    Prop where
  sections : addresses ≠ [] → Dwarf.Readable (emptyView data) ∧
    ∀ name ∈ debugSectionNames, Dwarf.Readable (sectionData data obj name)
  names : ∀ context, (buildContext data obj : Call GetSymbolsError _) = .ok (.ok context) →
    ∀ pair ∈ addresses, ∀ frameIter, context.findFrames pair.vmaddrInThisObject = .ok frameIter →
    ∀ frame ∈ frameIter.frames, ∀ name, frame.function = some (some name) → Demangles name

theorem exists_functionName_iff {function : Option (Option String)} :
    (∃ f, (functionName function : Call GetSymbolsError _) = .ok f) ↔
      ∀ name, function = some (some name) → Demangles name := by
  constructor
  · rintro ⟨f, hf⟩ name rfl
    obtain ⟨demangled, hdemangled, -⟩ := Outcome.bind_eq_ok.mp hf
    exact ⟨demangled, hdemangled⟩
  · intro h
    rcases function with _ | _ | name
    · exact ⟨none, rfl⟩
    · exact ⟨none, rfl⟩
    · obtain ⟨demangled, hdemangled⟩ := h name rfl
      exact ⟨some demangled, Outcome.bind_eq_ok.mpr ⟨demangled, hdemangled, rfl⟩⟩

variable [Platform]

/-- The frames of an address are read where their names can be demangled. -/
theorem exists_updateFor_iff {context : DwarfContext} {basePath : BasePath} {pair : AddressPair} :
    (∃ us, (updateFor context basePath pair : Call GetSymbolsError _) = .ok us) ↔
      ∀ frameIter, context.findFrames pair.vmaddrInThisObject = .ok frameIter →
      ∀ frame ∈ frameIter.frames, ∀ name, frame.function = some (some name) → Demangles name := by
  have hframe : ∀ frame : Frame, (∃ f, (stackFrame basePath frame : Call GetSymbolsError _) = .ok f) ↔
      ∀ name, frame.function = some (some name) → Demangles name := by
    intro frame
    rw [← exists_functionName_iff, stackFrame, Outcome.exists_bind_pure_eq_ok]
  rw [updateFor, Outcome.exists_bind_pure_eq_ok, framesAt]
  cases context.findFrames pair.vmaddrInThisObject with
  | error e =>
      constructor
      · intro _ frameIter hframeIter
        cases hframeIter
      · exact fun _ => ⟨[], rfl⟩
  | ok frameIter =>
      show (∃ frames, (do
        let frames ← stackFrames basePath frameIter.frames
        return if frameIter.failsAfter then [] else frames : Call GetSymbolsError _) = .ok frames) ↔ _
      rw [Outcome.exists_bind_pure_eq_ok, stackFrames, Outcome.exists_mapM_eq_ok_iff]
      constructor
      · intro h frameIter' heq frame hmem
        obtain rfl := Except.ok.inj heq
        exact (hframe frame).mp (h frame hmem)
      · exact fun h frame hmem => (hframe frame).mpr (h frameIter rfl frame hmem)

theorem exists_updatesFor_iff {context : DwarfContext} {basePath : BasePath}
    {pairs : List AddressPair} :
    (∃ us, (updatesFor context basePath pairs : Call GetSymbolsError _) = .ok us) ↔
      ∀ pair ∈ pairs, ∃ us, (updateFor context basePath pair : Call GetSymbolsError _) = .ok us := by
  rw [updatesFor, Outcome.exists_bind_pure_eq_ok, Outcome.exists_mapM_eq_ok_iff]

/-- **WHEN A LOOKUP ANSWERS**: exactly when the debug info can be read. -/
theorem exists_debugUpdates_iff {basePath : BasePath} {data : RangeReadRef} {obj : ObjectFile}
    {addresses : List AddressPair} :
    (∃ us, (debugUpdates basePath data obj addresses : Call GetSymbolsError _) = .ok us) ↔
      LookupReadable data obj addresses := by
  by_cases hempty : addresses = []
  · subst hempty
    constructor
    · exact fun _ => ⟨fun hne => absurd rfl hne, fun _ _ _ hmem => by cases hmem⟩
    · exact fun _ => ⟨[], rfl⟩
  · rw [debugUpdates, if_neg (by simpa using hempty)]
    constructor
    · rintro ⟨us, hus⟩
      obtain ⟨sectionData, hsections, hus⟩ := Outcome.bind_eq_ok.mp hus
      obtain ⟨built, hbuilt, hus⟩ := Outcome.bind_eq_ok.mp hus
      have hbuild : (buildContext data obj : Call GetSymbolsError _) = .ok built :=
        Outcome.bind_eq_ok.mpr ⟨sectionData, hsections, hbuilt⟩
      refine ⟨fun _ => exists_buildContext_iff.mp ⟨built, hbuild⟩, ?_⟩
      intro context hcontext pair hpair
      obtain rfl := Outcome.ok.inj (hbuild.symm.trans hcontext)
      exact exists_updateFor_iff.mp (exists_updatesFor_iff.mp ⟨us, hus⟩ pair hpair)
    · intro h
      obtain ⟨built, hbuild⟩ := exists_buildContext_iff.mpr (h.sections hempty)
      obtain ⟨sectionData, hsections, hbuilt⟩ := Outcome.bind_eq_ok.mp hbuild
      -- a context that cannot be built is skipped
      cases built with
      | error e =>
          refine ⟨[], Outcome.bind_eq_ok.mpr ⟨sectionData, hsections, ?_⟩⟩
          exact Outcome.bind_eq_ok.mpr ⟨_, hbuilt, rfl⟩
      | ok context =>
          obtain ⟨us, hus⟩ := exists_updatesFor_iff.mpr (fun pair hpair =>
            exists_updateFor_iff.mpr (h.names context hbuild pair hpair))
          refine ⟨us, Outcome.bind_eq_ok.mpr ⟨sectionData, hsections, ?_⟩⟩
          exact Outcome.bind_eq_ok.mpr ⟨_, hbuilt, hus⟩

end Lookup

end Dwarf

/-! ## All that an object leads to -/

namespace Traversal

open ObjectReferences Dwarf MachO Journeys Worklist
open scoped List

variable [Crates] [Platform] {files : ObjectFiles}

/-- **AN ITEM READS THROUGH** if it can be read, and all that it leads to, and there is
    an end of it. -/
inductive ReadsThrough (files : ObjectFiles) : Item → Prop
  | missing {m : Member} {e : String} : files m.1 = .error e → ReadsThrough files (.filed m)
  | opened {m : Member} {contents : FileContents} : files m.1 = .ok contents →
      archiveReadable contents m.2.1 = true →
      (∀ data, memberData contents m.2.1 = some data → ReadsThrough files (.object data m.2.2)) →
      ReadsThrough files (.filed m)
  | object {data : RangeReadRef} {functions : FunctionsWithAddresses} {machoFile : ObjectFile} :
      Crates.parseFile data = .ok machoFile →
      ReadsThrough files (.parsed ⟨data, machoFile, translateAddressesToObject machoFile functions⟩) →
      ReadsThrough files (.object data functions)
  | parsed {object : CurrentObject} :
      LookupReadable object.data object.machoFile
        (internalAddresses object.machoFile object.addresses) →
      NamesReadable object → (∀ m ∈ externalMembers object, ReadsThrough files (.filed m)) →
      ReadsThrough files (.parsed object)

/-- What reads through is drained in some number of expansions. -/
theorem ReadsThrough.drains (basePath : BasePath) {item : Item} (h : ReadsThrough files item) :
    ∃ marks, Drains (marked (expand files basePath)) [item] marks := by
  -- an item is drained once what it expands to is
  have hone : ∀ {item : Item} {us : List DebugUpdate} {children : List Item},
      expand files basePath item = some (us, children) →
      (∀ c ∈ children, ∃ marks, Drains (marked (expand files basePath)) [c] marks) →
      ∃ marks, Drains (marked (expand files basePath)) [item] marks := by
    intro item us children hexpand hchildren
    obtain ⟨marks, hmarks⟩ := exists_drains hchildren
    have hmarked : marked (expand files basePath) item = some ([()], children) := by
      rw [marked, hexpand]
      rfl
    exact ⟨[()] ++ marks, .cons hmarked (by rwa [List.append_nil])⟩
  induction h with
  | missing hfile => exact hone (expand_missing hfile) (fun _ hc => by cases hc)
  | opened hfile harchive _ ih =>
      refine hone (expand_opened hfile harchive) ?_
      intro c hc
      obtain ⟨data, hdata, rfl⟩ := List.mem_map.mp hc
      exact ih data (Option.mem_toList.mp hdata)
  | object hparse _ ih => exact hone (expand_object hparse) (List.forall_mem_singleton.mpr ih)
  | @parsed object hlookup hnames _ ih =>
      obtain ⟨us, hus⟩ : ∃ us, updatesOf basePath object = .ok us := exists_debugUpdates_iff.mpr hlookup
      refine hone (expand_parsed hus hnames) ?_
      intro c hc
      obtain ⟨m, hm, rfl⟩ := List.mem_map.mp hc
      exact ih m hm

section Runs

variable {env : Environment} {basePath : BasePath} {requested : List Nat}
  {s s' : Traversal LookedUpAddresses}

omit [Platform] in
/-- The calls of a traversal keep the extents. -/
theorem keepsExtents_addAll {r r' : LookedUpAddresses} {us : List DebugUpdate}
    (h : (addAll r us : Call GetSymbolsError _) = .ok r') : r.KeepsExtents r' := by
  induction us generalizing r with
  | nil =>
      rw [addAll, List.foldlM_nil, Outcome.pure_eq_ok, Outcome.ok.injEq] at h
      exact h ▸ LookedUpAddresses.KeepsExtents.refl r
  | cons u us ih =>
      rw [addAll, List.foldlM_cons] at h
      obtain ⟨r₁, hr₁, hrest⟩ := Outcome.bind_eq_ok.mp h
      exact (LookedUpAddresses.KeepsExtents.of_addAddressDebugInfo hr₁).trans (ih hrest)

/-- **THE WORK RUNS OUT**: a state whose work can be drained gets to its end, whatever
    the orders.  The induction is on the number of expansions. -/
theorem exists_run_of_drains {marks : List Unit} {envs : Nat → Environment}
    (henvs : ∀ n, (envs n).Opens files) (hs : Sound basePath requested s)
    (h : Drains (marked (expand files basePath)) s.items marks) :
    ∃ fuel t, machine.run envs fuel s = .ok t := by
  induction hn : marks.length using Nat.strong_induction_on generalizing s marks envs with
  | _ n ih =>
  obtain ⟨next, hstep⟩ : ∃ next, machine (envs 0) s = .ok next := by
    by_contra hno
    obtain ⟨item, hitem, hnone⟩ :=
      exists_failing_item (henvs 0) hs (fun next hnext => hno ⟨next, hnext⟩)
    refine h.expand_ne_none hitem ?_
    rw [marked, hnone]
    rfl
  -- a step takes expansions away and adds none
  cases next with
  | none =>
      refine ⟨1, s, ?_⟩
      rw [StepFunction.run, hstep]
      rfl
  | some s' =>
      have hone := Step.of_step hstep
      obtain ⟨-, us, taken, children, kept, rest, hitems, htaken, hexpands, hitems', hkept, -, -⟩ :=
        hone.expands (henvs 0) hs.basePath hs.members
      rw [hitems] at h
      obtain ⟨left, hleft, hperm⟩ := Drains.expands hexpands.marked h
      obtain ⟨left', hleft', hle⟩ := hleft.subperm
        (hitems'.subperm.trans (hkept.append (List.Subperm.refl rest)))
      have hlt : left'.length < n := by
        have hlength := hperm.length_eq
        rw [List.length_append, List.length_replicate] at hlength
        have := List.length_pos_of_ne_nil htaken
        omega
      obtain ⟨fuel, t, hrun⟩ := ih _ hlt (fun n => henvs (n + 1)) (hone.sound hs) hleft' rfl
      refine ⟨fuel + 1, t, ?_⟩
      rw [StepFunction.run, hstep]
      exact hrun

/-- Work that a step does not take up is still there after it. -/
theorem Step.readsThrough_of_next (henv : env.Opens files) (h : Step env s s')
    (hnext : ∀ item ∈ s'.items, ReadsThrough files item)
    (hcurrent : ∀ object, s.current = some object → ∀ m ∈ externalMembers object,
      ReadsThrough files (.filed m)) :
    ∀ item ∈ s.items, ReadsThrough files item := by
  cases h with
  | @lookUp object r queue m hobject hcollect =>
      obtain ⟨hdwarf, references, hreferences, rfl⟩ := collect_eq_ok.mp hcollect
      intro item hitem
      rw [items_of_current hobject] at hitem
      rcases List.mem_cons.mp hitem with rfl | hrest
      · obtain ⟨us, hus, -⟩ := (Dwarf.collect_eq_ok rfl).mp ⟨m, hdwarf⟩
        exact .parsed (exists_debugUpdates_iff.mp ⟨us, hus⟩) (objectReferences_eq_ok hreferences).1
          (hcurrent object hobject)
      · refine hnext item (List.mem_append_right _ ?_)
        rw [List.flatMap_append, List.map_append, ← List.append_assoc]
        exact List.mem_append_left _ hrest
  | @parse data functions objects machoFile hobject hobjects hparse =>
      intro item hitem
      rw [items_of_objects hobject hobjects] at hitem
      -- it is the object that the step has parsed, or one of those behind it
      rcases List.mem_cons.mp hitem with rfl | hrest
      · exact .object hparse (hnext _ (List.mem_cons_self ..))
      · exact hnext item (List.mem_cons_of_mem _ hrest)
  | @skip objRef references e hobject hobjects hqueue hopen =>
      intro item hitem
      rw [items_of_queue hobject hobjects hqueue] at hitem
      rcases List.mem_append.mp hitem with hself | hrest
      · obtain ⟨m, hm, rfl⟩ := List.mem_map.mp hself
        have hfile : files m.1 = .error e := by rw [fst_of_mem_members hm, ← henv, hopen]
        exact .missing hfile
      · exact hnext item hrest
  | @openFile objRef references contents objects hobject hobjects hqueue hopen hinto =>
      intro item hitem
      rw [items_of_queue hobject hobjects hqueue] at hitem
      rcases List.mem_append.mp hitem with hself | hrest
      · obtain ⟨m, hm, rfl⟩ := List.mem_map.mp hself
        have hfile : files m.1 = .ok contents := by rw [fst_of_mem_members hm, ← henv, hopen]
        refine .opened hfile (archiveReadable_of_intoObjects hinto hm) ?_
        intro data hdata
        refine hnext _ ?_
        show _ ∈ objects.map (fun e => Item.object e.1 e.2) ++ (references.flatMap members).map .filed
        refine List.mem_append_left _ (List.mem_map.mpr ⟨(data, m.2.2), ?_, rfl⟩)
        rw [(intoObjects_perm hinto).mem_iff]
        exact List.mem_filterMap.mpr ⟨m, hm, by rw [hdata]; rfl⟩
      · refine hnext item ?_
        show _ ∈ objects.map (fun e => Item.object e.1 e.2) ++ (references.flatMap members).map .filed
        exact List.mem_append_right _ hrest

/-- The object at hand may keep any of its external members: its maps need only be
    read in another order. -/
theorem Step.exists_keeping (henv : env.Opens files) (h : Step env s s') {object : CurrentObject}
    (hobject : s.current = some object) {m : Member} (hm : m ∈ externalMembers object) :
    ∃ (env' : Environment) (t : Traversal LookedUpAddresses), env'.Opens files ∧ Step env' s t ∧
      .filed m ∈ t.items := by
  cases h with
  | @lookUp object' r queue pathMapper hobject' hcollect =>
      obtain rfl := Option.some.inj (hobject.symm.trans hobject')
      obtain ⟨hdwarf, references, hreferences, rfl⟩ := collect_eq_ok.mp hcollect
      obtain ⟨orders, references', hreferences', hkept⟩ := exists_orders_keeping GetSymbolsError
        (objectReferences_eq_ok hreferences).1 hm
      refine ⟨⟨env.helper, orders⟩, _, henv, .lookUp hobject (collect_eq_ok.mpr
        ⟨hdwarf, references', hreferences', rfl⟩), ?_⟩
      refine List.mem_append_right _ (List.mem_append_right _ (List.mem_map_of_mem ?_))
      rw [List.flatMap_append]
      exact List.mem_append_right _ hkept
  | parse hnone => cases hobject.symm.trans hnone
  | skip hnone => cases hobject.symm.trans hnone
  | openFile hnone => cases hobject.symm.trans hnone

/-- **RUNS THAT ALL ANSWER** have read everything.  The induction is on the steps, which
    come to an end; a member that the maps lose in one order is kept in another. -/
theorem readsThrough_of_answers (h : machine.Answers (Environment.Opens files) s) :
    ∀ item ∈ s.items, ReadsThrough files item := by
  have hacc := h.acc
  induction hacc with
  | intro s _ ih =>
      obtain ⟨env, henv⟩ := exists_opens files
      rcases h.head henv with hstop | ⟨s', hstep, hs'⟩
      · rw [items_eq_nil_of_stop hstop]
        intro item hitem
        cases hitem
      · have hone := Step.of_step hstep
        refine hone.readsThrough_of_next henv (ih s' ⟨env, henv, hstep⟩ hs') ?_
        -- the order of this run may have lost `m`; in another it is kept, and that run answers too
        intro object hobject m hm
        obtain ⟨env', t, henv', htaken, hkept⟩ := hone.exists_keeping henv hobject hm
        rcases h.head henv' with hstop | ⟨t', ht', hanswers⟩
        · cases htaken.machine_eq.symm.trans hstop
        · obtain rfl := Option.some.inj (Outcome.ok.inj (htaken.machine_eq.symm.trans ht'))
          exact ih t ⟨env', henv', ht'⟩ hanswers _ hkept

/-- **WHEN EVERY RUN ANSWERS**: exactly when all the work of the state reads through. -/
theorem answers_iff_readsThrough (hs : Sound basePath requested s) :
    machine.Answers (Environment.Opens files) s ↔ ∀ item ∈ s.items, ReadsThrough files item := by
  constructor
  · exact readsThrough_of_answers
  · intro h envs henvs
    obtain ⟨marks, hmarks⟩ := exists_drains (fun item hitem => (h item hitem).drains basePath)
    exact exists_run_of_drains henvs hs hmarks

end Runs

end Traversal

end ProfilerGetSymbols
