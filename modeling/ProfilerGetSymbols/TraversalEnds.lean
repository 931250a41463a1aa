import ProfilerGetSymbols.Journeys
import ProfilerGetSymbols.TraversalAddresses

/-! # The end of the traversal — when the queue runs empty

    The traversal goes through an object file as often as addresses are filed
    in it.  Object files that refer to each other in a circle keep it going: an
    address comes back, is filed again, and nothing stops that.

    It ends when every journey does.  `Traversal.measure` counts the hops that
    the addresses of a state have still ahead of them, and the references and
    objects in between; each step makes it smaller.  For a single address the
    condition is exact: the traversal runs for ever if its journey does. -/

namespace ProfilerGetSymbols.Traversal

open ProgLib Paths ObjectReferences Dwarf MachO Journeys
open scoped List

section Ends

variable [Crates] [Platform] {R : Type}

/-! ## The way ahead -/

/-- Where the addresses of a reference are filed next. -/
def aheadOfReference (files : ObjectFiles) (objRef : ObjectReference) : List FiledAddress :=
  ((members objRef).flatMap filedAddresses).filterMap (next files)

/-- Where the addresses of a state are filed next. -/
def ahead (files : ObjectFiles) (s : Traversal R) : List FiledAddress :=
  s.current.toList.flatMap (fun object => passedOn object.machoFile object.addresses)
    ++ (s.objects.flatMap (fun e => (filings e.2).filterMap (onwardFrom e.1))
      ++ s.remainingObjectReferences.flatMap (aheadOfReference files))

/-- The hops ahead of some addresses, the one that filed each of them included. -/
noncomputable def travel (files : ObjectFiles) (l : List FiledAddress) : Nat :=
  (l.map (fun a => Chain.hops (next files) a + 1)).sum

/-- References, by what popping one can leave. -/
def weight (references : List ObjectReference) : Nat :=
  (references.map (fun objRef => 2 * (members objRef).length + 1)).sum

noncomputable def measure (files : ObjectFiles) (s : Traversal R) : Nat :=
  3 * travel files (s.ahead files) + weight s.remainingObjectReferences + 2 * s.objects.length
    + s.current.toList.length

omit [Crates] in
theorem weight_eq (references : List ObjectReference) :
    weight references = 2 * (references.flatMap members).length + references.length := by
  induction references with
  | nil => rfl
  | cons objRef references ih =>
      rw [weight, List.map_cons, List.sum_cons, ← weight, ih, List.flatMap_cons, List.length_append,
        List.length_cons]
      omega

theorem travel_append (files : ObjectFiles) (l l' : List FiledAddress) :
    travel files (l ++ l') = travel files l + travel files l' := by
  rw [travel, List.map_append, List.sum_append]
  rfl

theorem travel_le_of_subperm (files : ObjectFiles) {l l' : List FiledAddress} (h : l <+~ l') :
    travel files l ≤ travel files l' := by
  obtain ⟨lost, hlost⟩ := exists_perm_append_of_subperm h
  have hsum : travel files l' = travel files (l ++ lost) := (hlost.map _).sum_eq
  rw [hsum, travel_append]
  exact Nat.le_add_right ..

/-- A hop of each address takes a hop off each. -/
theorem travel_filterMap_next {files : ObjectFiles} {l : List FiledAddress}
    (hends : ∀ a ∈ l, Chain.Ends (next files) a) :
    travel files (l.filterMap (next files)) + l.length ≤ travel files l := by
  induction l with
  | nil => exact Nat.le_refl _
  | cons a l ih =>
      rw [List.forall_mem_cons] at hends
      have htail := ih hends.2
      have hcons : travel files (a :: l) = Chain.hops (next files) a + 1 + travel files l := by
        rw [travel, List.map_cons, List.sum_cons]
        rfl
      rw [hcons, List.length_cons]
      cases hnext : next files a with
      | none =>
          rw [List.filterMap_cons_none hnext]
          omega
      | some b =>
          have hhops := Chain.hops_of_next hnext ((Chain.ends_iff_of_next hnext).mp hends.1)
          have hb : travel files (b :: l.filterMap (next files))
              = Chain.hops (next files) b + 1 + travel files (l.filterMap (next files)) := by
            rw [travel, List.map_cons, List.sum_cons]
            rfl
          rw [List.filterMap_cons_some hnext, hb]
          omega

/-! ## A step goes ahead -/

omit [Crates] in
/-- A queued reference has a member, and each of its members an address. -/
theorem weight_le {ε : Type} {orders : Orders} {obj : ObjectFile} {addresses : List AddressPair}
    {references : List ObjectReference}
    (h : (objectReferences orders obj.objectMap.objects (externalFunsByObject obj addresses)
      : Call ε _) = .ok references) :
    weight references ≤ 3 * ((references.flatMap members).flatMap filedAddresses).length := by
  have hmember : ∀ m ∈ references.flatMap members, filedAddresses m ≠ [] := by
    intro m hm hnil
    obtain ⟨e, he, hem⟩ := List.mem_filterMap.mp ((members_subperm h).subset hm)
    obtain ⟨file, -, rfl⟩ := Option.map_eq_some_iff.mp hem
    obtain ⟨t, ht, -, hte⟩ := AddressSplit.exists_triple_of_mem he
    have := List.flatMap_eq_nil_iff.mp hnil t.2 hte
    exact AddressSplit.flush_ne_nil ((triples_subperm obj addresses).subset ht)
      (List.map_eq_nil_iff.mp this)
  have hmembers := length_le_length_flatMap (f := members)
    (fun objRef hobjRef => members_ne_nil h hobjRef)
  have haddresses := length_le_length_flatMap hmember
  rw [weight_eq]
  omega

omit [Crates] in
theorem weight_append (references references' : List ObjectReference) :
    weight (references ++ references') = weight references + weight references' := by
  rw [weight, List.map_append, List.sum_append]
  rfl

theorem flatMap_aheadOfReference (files : ObjectFiles) (references : List ObjectReference) :
    references.flatMap (aheadOfReference files)
      = ((references.flatMap members).flatMap filedAddresses).filterMap (next files) := by
  rw [List.flatMap_assoc, List.filterMap_flatMap]
  rfl

/-- An opened reference leaves its objects on the same way. -/
theorem objects_ahead_subperm {files : ObjectFiles} {orders : Orders} {objRef : ObjectReference}
    {contents : FileContents} (hopen : files (Platform.components objRef.path) = .ok contents)
    {objects : List (RangeReadRef × FunctionsWithAddresses)}
    (hobjects : objRef.intoObjects orders contents = .ok objects) :
    objects.flatMap (fun e => (filings e.2).filterMap (onwardFrom e.1))
      <+~ aheadOfReference files objRef := by
  refine ((intoObjects_perm hobjects).flatMap_right _).subperm.trans ?_
  refine (List.Perm.of_eq ?_).subperm
  rw [aheadOfReference, List.filterMap_flatMap, List.filterMap_eq_flatMap_toList, List.flatMap_assoc]
  refine List.flatMap_congr ?_
  intro m hm
  rw [filterMap_next ((fst_of_mem_members hm).symm ▸ hopen)]
  cases memberData contents m.2.1 with
  | none => rfl
  | some data => simp

section Steps

variable [SymbolicationResult R] {env : Environment} {s s' : Traversal R} {files : ObjectFiles}

/-- Every journey that is still ahead ends. -/
def AllEnd (files : ObjectFiles) (s : Traversal R) : Prop :=
  ∀ a ∈ s.ahead files, Chain.Ends (next files) a

/-- A lookup passes addresses on by one hop of each. -/
theorem measure_lt_of_lookUp {object : CurrentObject} {r : R} {queue : List ObjectReference}
    {m : PathMapper Unit} (hs : s.AllEnd files) (hcurrent : s.current = some object)
    (hcollect : (collectDebugInfoAndObjectReferences env.orders object.data object.machoFile
      object.addresses s.symbolicationResult s.remainingObjectReferences s.pathMapper
        : Call GetSymbolsError _) = .ok (r, queue, m)) :
    AllEnd files (⟨r, m, queue, s.objects, none⟩ : Traversal R) ∧
      measure files (⟨r, m, queue, s.objects, none⟩ : Traversal R) < s.measure files := by
  obtain ⟨-, references, hreferences, rfl⟩ := collect_eq_ok.mp hcollect
  have hfiled := filedAddresses_subperm hreferences
  set filed := (references.flatMap members).flatMap filedAddresses with hdef
  have hends : ∀ a ∈ filed, Chain.Ends (next files) a := by
    intro a ha
    refine hs a (List.mem_append_left _ ?_)
    rw [hcurrent, Option.toList_some, List.flatMap_singleton]
    exact hfiled.subset ha
  constructor
  · intro b hb
    rcases List.mem_append.mp hb with hb | hb
    · cases hb
    · rcases List.mem_append.mp hb with hb | hb
      · exact hs b (List.mem_append_right _ (List.mem_append_left _ hb))
      · rw [List.flatMap_append] at hb
        rcases List.mem_append.mp hb with hb | hb
        · exact hs b (List.mem_append_right _ (List.mem_append_right _ hb))
        · -- a new reference: one hop further on a journey that ends
          rw [flatMap_aheadOfReference, ← hdef] at hb
          obtain ⟨a, ha, hab⟩ := List.mem_filterMap.mp hb
          exact (Chain.ends_iff_of_next hab).mp (hends a ha)
  · have htravel := travel_le_of_subperm files hfiled
    have hhop := travel_filterMap_next hends
    have hweight := weight_le hreferences
    rw [← hdef] at hweight
    simp only [measure, ahead, hcurrent, Option.toList_some, Option.toList_none,
      List.flatMap_cons, List.flatMap_nil, List.append_nil, List.nil_append,
      List.flatMap_append, flatMap_aheadOfReference, ← hdef, travel_append, weight_append,
      List.length_cons, List.length_nil]
    omega

omit [SymbolicationResult R] in
/-- A step that hands on the ways ahead is a step ahead if less is left to do. -/
theorem measure_lt_of_ahead (hs : s.AllEnd files) (hahead : s'.ahead files <+~ s.ahead files)
    (hless : weight s'.remainingObjectReferences + 2 * s'.objects.length
        + s'.current.toList.length
      < weight s.remainingObjectReferences + 2 * s.objects.length + s.current.toList.length) :
    s'.AllEnd files ∧ s'.measure files < s.measure files := by
  refine ⟨fun a ha => hs a (hahead.subset ha), ?_⟩
  have htravel := travel_le_of_subperm files hahead
  rw [measure, measure]
  omega

/-- **EACH STEP IS A STEP AHEAD** if all journeys end. -/
theorem Step.measure_lt (henv : env.Opens files) (hs : s.AllEnd files) (h : Step env s s') :
    s'.AllEnd files ∧ s'.measure files < s.measure files := by
  cases h with
  | @lookUp object r queue m hcurrent hcollect =>
      exact measure_lt_of_lookUp hs hcurrent hcollect
  | @parse data functions objects machoFile hcurrent hobjects hparse =>
      -- what was filed in the object is passed on by it: the same way is ahead
      have hahead : ahead files (⟨s.symbolicationResult, s.pathMapper, s.remainingObjectReferences,
          objects, some ⟨data, machoFile, translateAddressesToObject machoFile functions⟩⟩
            : Traversal R) <+~ s.ahead files := by
        simp only [ahead, hcurrent, hobjects, Option.toList_some, Option.toList_none,
          List.flatMap_cons, List.flatMap_nil, List.append_nil, List.nil_append, List.append_assoc]
        exact (passedOn_translate_subperm hparse functions).append (List.Subperm.refl _)
      refine measure_lt_of_ahead hs hahead ?_
      simp only [hcurrent, hobjects, Option.toList_some, Option.toList_none,
        List.length_cons, List.length_nil]
      omega
  | @skip objRef references e hcurrent hobjects hqueue hopen =>
      -- what was filed in a missing file goes no further
      have hahead : ahead files (⟨s.symbolicationResult, s.pathMapper, references, [], none⟩
          : Traversal R) <+~ s.ahead files := by
        simp only [ahead, hcurrent, hobjects, hqueue, Option.toList_none, List.flatMap_cons,
          List.flatMap_nil, List.nil_append]
        exact (List.sublist_append_right _ _).subperm
      refine measure_lt_of_ahead hs hahead ?_
      simp only [hcurrent, hobjects, hqueue, Option.toList_none, List.length_nil, weight,
        List.map_cons, List.sum_cons]
      omega
  | @openFile objRef references contents objects hcurrent hobjects hqueue hopen hinto =>
      have hcontents := henv objRef.path
      rw [hopen] at hcontents
      have hahead : ahead files (⟨s.symbolicationResult, s.pathMapper, references, objects, none⟩
          : Traversal R) <+~ s.ahead files := by
        simp only [ahead, hcurrent, hobjects, hqueue, Option.toList_none, List.flatMap_cons,
          List.flatMap_nil, List.nil_append]
        exact (objects_ahead_subperm hcontents.symm hinto).append (List.Subperm.refl _)
      refine measure_lt_of_ahead hs hahead ?_
      -- a reference weighs more than the objects it is taken apart into
      have hlength : objects.length ≤ (members objRef).length :=
        (intoObjects_perm hinto).length_eq.trans_le (List.length_filterMap_le ..)
      simp only [hcurrent, hobjects, hqueue, Option.toList_none, List.length_nil, weight,
        List.map_cons, List.sum_cons]
      omega

/-- The loop ends, whatever the maps' orders, if the files stay as they are. -/
def Finishes (files : ObjectFiles) (s : Traversal R) : Prop :=
  ∀ envs : Nat → Environment, (∀ n, (envs n).Opens files) →
    ∃ fuel, machine.run envs fuel s ≠ .unfinished

/-- **THE TRAVERSAL ENDS** when all journeys do. -/
theorem AllEnd.finishes (hreturns : ∀ (r : R) address info,
      (SymbolicationResult.addAddressDebugInfo r address info : Call GetSymbolsError R)
        ≠ .unfinished)
    (hs : s.AllEnd files) : s.Finishes files := by
  intro envs henvs
  refine ⟨s.measure files + 1, ?_⟩
  refine StepFunction.run_ne_unfinished (I := AllEnd files) ?_ ?_ henvs hs (Nat.lt_succ_self _)
  · intro env t
    refine (settles_step (fun _ => True) ⟨trivial, trivial, trivial⟩ trivial trivial
      (I := fun _ => True) ?_ trivial env).ne_unfinished
    intro a _ r info _
    refine ⟨?_, fun _ _ => trivial⟩
    cases hadd : (SymbolicationResult.addAddressDebugInfo r a info : Call GetSymbolsError R) with
    | ok r' => exact trivial
    | err e => exact trivial
    | panic site => exact trivial
    | unfinished => exact absurd hadd (hreturns r a info)
  · intro env t t' henv ht hstep
    exact (Step.of_step hstep).measure_lt henv ht

/-! ## One address for ever -/

omit [Crates] [Platform] [SymbolicationResult R] in
/-- An address on its own goes to its owner. -/
theorem assigned_singleton {obj : ObjectFile} {p : AddressPair} {f : ObjectMapEntry}
    (howner : owner obj p = some f) :
    assigned obj [p] = [(f, [p])] ∧ internalAddresses obj [p] = [] := by
  obtain ⟨hits, hmem, hp⟩ := AddressSplit.exists_assigned_of_owner (List.pairwise_singleton _ _)
    (List.mem_singleton_self p) howner
  have hall := (addresses_perm obj [p]).length_eq
  have hcount := length_le_length_flatMap (f := fun e => e.2) (l := assigned obj [p])
    (fun e he => (sweep_hit Past Hits he).2.1)
  rw [List.length_append, List.length_singleton] at hall
  have hone : (assigned obj [p]).length = 1 := by
    have := List.length_pos_of_mem hmem
    omega
  obtain ⟨e, he⟩ := List.length_eq_one_iff.mp hone
  rw [he, List.mem_singleton] at hmem
  subst hmem
  rw [he, List.flatMap_singleton] at hall
  dsimp only at hall
  have hhits : hits = [p] := by
    have hpos := List.length_pos_of_mem hp
    have hlength : hits.length = 1 := by omega
    obtain ⟨q, hq⟩ := List.length_eq_one_iff.mp hlength
    rw [hq, List.mem_singleton] at hp
    rw [hq, hp]
  rw [he, hhits]
  refine ⟨rfl, List.eq_nil_of_length_eq_zero ?_⟩
  rw [hhits, List.length_singleton] at hall
  omega

/-- There is one address left, and it is filed again and again. -/
inductive Circling (files : ObjectFiles) : Traversal R → Prop
  | filed {r : R} {m : PathMapper Unit} {objRef : ObjectReference}
      {functions : FunctionsWithAddresses} {a : FiledAddress} :
      members objRef = [(a.path, a.nameInArchive, functions)] →
      functions.entries = [(a.function, [a.address])] → ¬ Chain.Ends (next files) a →
      Circling files ⟨r, m, [objRef], [], none⟩
  | opened {r : R} {m : PathMapper Unit} {data : RangeReadRef}
      {functions : FunctionsWithAddresses} {q : Bytes × AddressWithOffset} {b : FiledAddress} :
      functions.entries = [(q.1, [q.2])] → onwardFrom data q = some b →
      ¬ Chain.Ends (next files) b → Circling files ⟨r, m, [], [(data, functions)], none⟩
  | parsed {r : R} {m : PathMapper Unit} {data : RangeReadRef} {machoFile : ObjectFile}
      {p : AddressPair} {b : FiledAddress} : onward machoFile p = some b →
      ¬ Chain.Ends (next files) b → Circling files ⟨r, m, [], [], some ⟨data, machoFile, [p]⟩⟩

/-- An object with one address files it. -/
theorem exists_lookUp_step (env : Environment) (r : R) (m : PathMapper Unit) (data : RangeReadRef)
    {machoFile : ObjectFile} {p : AddressPair} {b : FiledAddress}
    (hb : onward machoFile p = some b) :
    ∃ objRef functions, machine env (⟨r, m, [], [], some ⟨data, machoFile, [p]⟩⟩ : Traversal R)
        = .ok (some ⟨r, m, [objRef], [], none⟩) ∧
      members objRef = [(b.path, b.nameInArchive, functions)] ∧
      functions.entries = [(b.function, [b.address])] := by
  obtain ⟨f, howner, hrefiled⟩ := Option.bind_eq_some_iff.mp hb
  obtain ⟨file, hfile, rfl⟩ := Option.map_eq_some_iff.mp hrefiled
  obtain ⟨hassigned, hinternal⟩ := assigned_singleton howner
  obtain ⟨functions, hentries, hfunctions⟩ : ∃ functions : FunctionsWithAddresses,
      (externalFunsByObject machoFile [p]).entries = [(f.objectIndex, functions)] ∧
        functions.entries = [(f.name, [withOffset f p])] := by
    rw [externalFunsByObject_eq, hassigned]
    exact ⟨_, rfl, rfl⟩
  have hnames : ∀ e ∈ (externalFunsByObject machoFile [p]).entries,
      (objectName machoFile.objectMap.objects e.1).isSome := by
    intro e he
    rw [hentries, List.mem_singleton] at he
    rw [he, ← AddressSplit.objectFile_isSome, hfile]
    rfl
  obtain ⟨references, hreferences⟩ := exists_objectReferences GetSymbolsError env.orders hnames
  -- with one entry in the outer map nothing can collide
  have hmembers : references.flatMap members ~ [(file.1, file.2, functions)] := by
    have hkeys : (archiveKeys machoFile.objectMap.objects
        (externalFunsByObject machoFile [p]).entries).Nodup := by
      rw [archiveKeys, hentries]
      cases hkey : archiveMember machoFile.objectMap.objects f.objectIndex with
      | none => simp [hkey]
      | some key => simp [hkey]
    have hperm := (members_perm_iff hreferences).mpr hkeys
    rw [hentries] at hperm
    simpa [member, hfile] using hperm
  have hcount := length_le_length_flatMap (f := members)
    (fun objRef hobjRef => members_ne_nil hreferences hobjRef)
  rw [hmembers.length_eq] at hcount
  obtain _ | ⟨objRef, rest⟩ := references
  · exact absurd hmembers.length_eq (by simp)
  · obtain rfl : rest = [] := by simpa using hcount
    rw [List.flatMap_singleton, List.perm_singleton] at hmembers
    refine ⟨objRef, functions, ?_, hmembers, hfunctions⟩
    have hcollect : (collectDebugInfoAndObjectReferences env.orders data machoFile [p] r [] m
        : Call GetSymbolsError _) = .ok (r, [objRef], m) := by
      refine collect_eq_ok.mpr ⟨?_, [objRef], hreferences, rfl⟩
      rw [hinternal]
      rfl
    exact Outcome.bind_eq_ok.mpr ⟨_, hcollect, rfl⟩

/-- A circling address circles on. -/
theorem Circling.step (henv : env.Opens files) (h : Circling files s) :
    ∃ s', machine env s = .ok (some s') ∧ Circling files s' := by
  cases h with
  | @filed r m objRef functions a hmembers hfunctions hends =>
      obtain ⟨b, hb, hendsb⟩ : ∃ b, next files a = some b ∧ ¬ Chain.Ends (next files) b := by
        by_contra hno
        refine hends (Chain.ends_iff.mpr (fun b hb => ?_))
        by_contra hendsb
        exact hno ⟨b, hb, hendsb⟩
      -- the hop says that the file opens and has the member, so the step does not skip
      rw [next] at hb
      obtain ⟨contents, hcontents, hb⟩ := Option.bind_eq_some_iff.mp hb
      obtain ⟨data, hdata, hb⟩ := Option.bind_eq_some_iff.mp hb
      have hmem : (a.path, a.nameInArchive, functions) ∈ members objRef := by simp [hmembers]
      have hopen : env.helper.openFile (.path objRef.path) = .ok contents := by
        rw [henv, ← fst_of_mem_members hmem]
        exact toOption_eq_some.mp hcontents
      obtain ⟨objects, hobjects⟩ : ∃ objects, objRef.intoObjects env.orders contents = .ok objects :=
        exists_intoObjects env.orders hmem (Option.isSome_of_mem hdata)
      have hperm := intoObjects_perm hobjects
      rw [hmembers] at hperm
      simp only [List.filterMap_cons, hdata, Option.map_some, List.filterMap_nil,
        List.perm_singleton] at hperm
      refine ⟨⟨r, m, [], [(data, functions)], none⟩, ?_, .opened hfunctions hb hendsb⟩
      show stepReference env _ objRef [] = _
      rw [stepReference, hopen]
      rw [hperm] at hobjects
      exact Outcome.bind_eq_ok.mpr ⟨_, Outcome.ofExcept_eq_ok.mpr hobjects, rfl⟩
  | @opened r m data functions q b hfunctions hb hendsb =>
      -- and that the object parses, with the function among its symbols
      obtain ⟨⟨machoFile, p⟩, hland, honward⟩ := Option.bind_eq_some_iff.mp hb
      obtain ⟨machoFile', hparse, hland⟩ := Option.bind_eq_some_iff.mp hland
      obtain ⟨p', hhere, heq⟩ := Option.bind_eq_some_iff.mp hland
      obtain ⟨rfl, rfl⟩ := Prod.mk.inj (Option.some.inj heq)
      have hfile : Crates.parseFile data = .ok machoFile' := toOption_eq_some.mp hparse
      have htranslate : translateAddressesToObject machoFile' functions = [p'] := by
        have hperm := translateAddressesToObject_perm machoFile' functions
        rw [filings, hfunctions, List.flatMap_singleton, List.map_singleton,
          List.filterMap_cons_some hhere, List.filterMap_nil, List.perm_singleton] at hperm
        exact hperm
      refine ⟨⟨r, m, [], [], some ⟨data, machoFile', [p']⟩⟩, ?_, .parsed honward hendsb⟩
      show stepObject _ data functions [] = _
      rw [stepObject, hfile, ← htranslate]
      rfl
  | @parsed r m data machoFile p b hb hendsb =>
      obtain ⟨objRef, functions, hstep, hmembers, hfunctions⟩ := exists_lookUp_step env r m data hb
      exact ⟨_, hstep, .filed hmembers hfunctions hendsb⟩

omit [Crates] in
/-- What a helper with these files opens. -/
def openIn (files : ObjectFiles) : FileLocation → Except String FileContents
  | .path path => files (Platform.components path)
  | .custom name => .error name

omit [Crates] in
/-- There is a helper for any files. -/
theorem exists_opens (files : ObjectFiles) : ∃ env, Environment.Opens files env :=
  ⟨⟨⟨fun _ _ => .ok [], fun _ _ _ _ => .ok [], openIn files⟩, ⟨.listed _, .listed _, .listed _⟩⟩,
    fun _ => rfl⟩

/-- **A CIRCLING ADDRESS** keeps the loop going for ever. -/
theorem Circling.not_finishes (h : Circling files s) : ¬ s.Finishes files := by
  intro hfinishes
  obtain ⟨env, henv⟩ := exists_opens files
  obtain ⟨fuel, hrun⟩ := hfinishes (fun _ => env) (fun _ => henv)
  have hnext : ∀ env (t : Traversal R), Environment.Opens files env → Circling files t →
      ∃ t' : Traversal R, machine env t = .ok (some t') ∧ Circling files t' :=
    fun _ _ henv ht => ht.step henv
  exact hrun (StepFunction.run_eq_unfinished hnext (fun _ => henv) h fuel)

/-! ## The exact condition -/

omit [SymbolicationResult R] in
/-- No address that the root object files is filed again and again for ever. -/
def JourneysEnd (files : ObjectFiles) (root : ObjectFile) (requested : List Nat) : Prop :=
  ∀ a ∈ passedOn root (makeAddressPairsForRootObject requested root), Chain.Ends (next files) a

/-- **WHEN THE TRAVERSAL ENDS**: for any addresses when their journeys do, and for
    one address exactly then. -/
theorem finishes_iff_journeysEnd (hreturns : ∀ (r : R) address info,
      (SymbolicationResult.addAddressDebugInfo r address info : Call GetSymbolsError R)
        ≠ .unfinished)
    (files : ObjectFiles) (r : R) (basePath : BasePath) (data : RangeReadRef) (root : ObjectFile) :
    (∀ requested, JourneysEnd files root requested →
      (start r basePath data root requested).Finishes files) ∧
    ∀ address, (start r basePath data root [address]).Finishes files ↔
      JourneysEnd files root [address] := by
  have henough : ∀ requested, JourneysEnd files root requested →
      (start r basePath data root requested).Finishes files := by
    intro requested hends
    refine AllEnd.finishes hreturns ?_
    intro a ha
    refine hends a ?_
    simpa [start, ahead] using ha
  refine ⟨henough, fun address => ⟨fun hfinishes a ha => ?_, henough [address]⟩⟩
  by_contra hends
  have honward := (passedOn_subperm (List.pairwise_singleton _ _)).subset ha
  obtain ⟨p, hp, hpa⟩ := List.mem_filterMap.mp honward
  rw [List.mem_singleton] at hp
  subst hp
  exact Circling.not_finishes (.parsed hpa hends) hfinishes

end Steps

end Ends

/-! ## An object that refers to itself -/

section Samples

/-- A function `f` that was linked from `/a.o`. -/
def selfReference : ObjectFile :=
  { ObjectFile.bare with
    symbols := [⟨some "f", 0x10, .text⟩]
    objectMap := ⟨[⟨0x10, 0x10, asBytes "f", 0⟩], [asBytes "/a.o"], by simp⟩ }

local instance : Platform := unix

local instance : Crates := { Crates.nothing with parseFile := fun _ => .ok selfReference }

def selfReferenceFiles : ObjectFiles := fun _ => .ok (.zeros 512)

/-- The traversal of that object. -/
def selfReferenceStart (address : Nat) : Traversal Recorder :=
  start ⟨[]⟩ .noLocalSourceFileAccess (FileContents.fullRange (.zeros 512))
    selfReference [address]

theorem finishes_iff_journeysEnd_selfReference :
    (selfReferenceStart 0x5).Finishes selfReferenceFiles ∧
      ((selfReferenceStart 0x11).Finishes selfReferenceFiles ↔
        JourneysEnd selfReferenceFiles selfReference [0x11]) := by
  have hreturns : ∀ (r : Recorder) address info,
      (SymbolicationResult.addAddressDebugInfo r address info : Call GetSymbolsError Recorder)
        ≠ .unfinished := by
    intro r address info h
    have hok : (.ok (r.record (.addAddressDebugInfo address info)) : Call GetSymbolsError Recorder)
      = .unfinished := h
    cases hok
  have h := finishes_iff_journeysEnd hreturns selfReferenceFiles (⟨[]⟩ : Recorder)
    .noLocalSourceFileAccess (FileContents.fullRange (.zeros 512))
    selfReference
  refine ⟨h.1 [0x5] ?_, h.2 0x11⟩
  intro a ha
  have hnone : passedOn selfReference (makeAddressPairsForRootObject [0x5] selfReference) = [] := by
    decide
  rw [hnone] at ha
  cases ha

/-- The object `/a.o` has an object map of its own, in which `f` comes from `/a.o`. -/
theorem not_finishes_selfReference : ¬ (selfReferenceStart 0x11).Finishes selfReferenceFiles := by
  have hself : next selfReferenceFiles ⟨asBytes <$> ["/", "a.o"], none, asBytes "f", ⟨0x11, 1⟩⟩
      = some ⟨asBytes <$> ["/", "a.o"], none, asBytes "f", ⟨0x11, 1⟩⟩ := by
    decide
  refine Circling.not_finishes (.parsed ?_ (Chain.not_ends_of_next_self hself))
  decide

end Samples

end ProfilerGetSymbols.Traversal
