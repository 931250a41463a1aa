import ProfilerGetSymbols.Journeys
import ProfilerGetSymbols.TraversalAddresses
import ProfilerGetSymbols.ProgLib.Worklist

/-! # The order of the traversal — when it does not matter

    The hash maps decide in which order the traversal takes its references.  As
    a worklist of single members it has no order: every item is expanded by
    itself, and whoever drains the list has made the same debug info calls.

    The traversal drains this worklist as long as `archives` keeps all that it is
    given.  Where two objects of one object map name the same archive member,
    the order decides which of them loses its functions, and the answers differ. -/

namespace ProfilerGetSymbols.Traversal

open ProgLib Paths ObjectReferences Dwarf MachO Journeys Worklist
open scoped List

section Order

variable [Crates] [Platform] {R : Type}

/-! ## The worklist -/

/-- Work of the traversal: a member to be opened, an object to be parsed, or one
    to be looked up. -/
inductive Item
  | filed (m : Member)
  | object (data : RangeReadRef) (functions : FunctionsWithAddresses)
  | parsed (object : CurrentObject)

/-- The archive of a member can be read, if it is in one. -/
def archiveReadable (contents : FileContents) : Option String → Bool
  | none => true
  | some _ => (Crates.archiveMembers contents).toOption.isSome

/-- The external members of an object with its addresses. -/
def externalMembers (object : CurrentObject) : List Member :=
  (externalFunsByObject object.machoFile object.addresses).entries.filterMap
    (member object.machoFile.objectMap.objects)

/-- The names of the objects that addresses are filed under are readable. -/
def NamesReadable (object : CurrentObject) : Prop :=
  ∀ e ∈ (externalFunsByObject object.machoFile object.addresses).entries,
    (objectName object.machoFile.objectMap.objects e.1).isSome

instance (object : CurrentObject) : Decidable (NamesReadable object) :=
  inferInstanceAs (Decidable (∀ _ ∈ _, _))

/-- The debug info calls of an object. -/
def updatesOf (basePath : BasePath) (object : CurrentObject) :
    Call GetSymbolsError (List DebugUpdate) :=
  debugUpdates basePath object.data object.machoFile
    (internalAddresses object.machoFile object.addresses)

/-- What an item puts out, and what it leaves; or it fails. -/
def expand (files : ObjectFiles) (basePath : BasePath) : Item → Option (List DebugUpdate × List Item)
  | .filed m =>
      match files m.1 with
      | .error _ => some ([], [])
      | .ok contents =>
          if archiveReadable contents m.2.1 then
            some ([], (memberData contents m.2.1).toList.map (fun data => .object data m.2.2))
          else none
  | .object data functions =>
      match Crates.parseFile data with
      | .error _ => none
      | .ok machoFile =>
          some ([], [.parsed ⟨data, machoFile, translateAddressesToObject machoFile functions⟩])
  | .parsed object =>
      match updatesOf basePath object with
      | .ok us =>
          if NamesReadable object then some (us, (externalMembers object).map .filed) else none
      | _ => none

/-- The work that a state has left. -/
def items (s : Traversal R) : List Item :=
  s.current.toList.map .parsed
    ++ (s.objects.map (fun e => .object e.1 e.2)
      ++ (s.remainingObjectReferences.flatMap members).map .filed)

section Expand

variable {files : ObjectFiles} {basePath : BasePath} {m : Member}

/-- A file that cannot be opened leads nowhere. -/
theorem expand_missing {e : String} (hfile : files m.1 = .error e) :
    expand files basePath (.filed m) = some ([], []) := by
  rw [expand, hfile]

/-- A file that is opened leads to the member that was asked for, if it is there. -/
theorem expand_opened {contents : FileContents} (hfile : files m.1 = .ok contents)
    (harchive : archiveReadable contents m.2.1 = true) :
    expand files basePath (.filed m)
      = some ([], (memberData contents m.2.1).toList.map (fun data => .object data m.2.2)) := by
  rw [expand, hfile]
  exact if_pos harchive

/-- Data that parses leads to the object in it. -/
theorem expand_object {data : RangeReadRef} {functions : FunctionsWithAddresses}
    {machoFile : ObjectFile} (hparse : Crates.parseFile data = .ok machoFile) :
    expand files basePath (.object data functions)
      = some ([], [.parsed ⟨data, machoFile, translateAddressesToObject machoFile functions⟩]) := by
  rw [expand, hparse]

/-- An object that can be looked up leads to its external members. -/
theorem expand_parsed {object : CurrentObject} {us : List DebugUpdate}
    (hus : updatesOf basePath object = .ok us) (hnames : NamesReadable object) :
    expand files basePath (.parsed object) = some (us, (externalMembers object).map .filed) := by
  rw [expand, hus]
  exact if_pos hnames

end Expand

section Items

variable {s : Traversal R}

theorem items_of_current {object : CurrentObject} (hcurrent : s.current = some object) :
    s.items = .parsed object :: (s.objects.map (fun e => .object e.1 e.2)
      ++ (s.remainingObjectReferences.flatMap members).map .filed) := by
  rw [items, hcurrent]
  rfl

theorem items_of_objects {data : RangeReadRef} {functions : FunctionsWithAddresses}
    {objects : List (RangeReadRef × FunctionsWithAddresses)} (hcurrent : s.current = none)
    (hobjects : s.objects = (data, functions) :: objects) :
    s.items = .object data functions :: (objects.map (fun e => .object e.1 e.2)
      ++ (s.remainingObjectReferences.flatMap members).map .filed) := by
  rw [items, hcurrent, hobjects]
  rfl

theorem items_of_queue {objRef : ObjectReference} {references : List ObjectReference}
    (hcurrent : s.current = none) (hobjects : s.objects = [])
    (hqueue : s.remainingObjectReferences = objRef :: references) :
    s.items = (members objRef).map .filed ++ (references.flatMap members).map .filed := by
  rw [items, hcurrent, hobjects, hqueue, List.flatMap_cons, List.map_append]
  rfl

end Items

/-- No two objects with addresses name the same archive member. -/
def CollisionFree (s : Traversal R) : Prop :=
  ∀ object ∈ s.current, (archiveKeys object.machoFile.objectMap.objects
    (externalFunsByObject object.machoFile object.addresses).entries).Nodup

/-! ## A step expands items -/

omit [Platform] in
theorem archiveReadable_of_intoObjects [Platform] {orders : Orders} {contents : FileContents}
    {objRef : ObjectReference} {objects : List (RangeReadRef × FunctionsWithAddresses)}
    (h : objRef.intoObjects orders contents = .ok objects) {m : Member} (hm : m ∈ members objRef) :
    archiveReadable contents m.2.1 = true := by
  cases objRef with
  | regular path functions =>
      rw [members, List.mem_singleton] at hm
      rw [hm]
      rfl
  | archive path archiveInfo =>
      obtain ⟨e, -, rfl⟩ := List.mem_map.mp hm
      rw [ObjectReference.intoObjects] at h
      cases hmembers : Crates.archiveMembers contents with
      | error error =>
          rw [hmembers] at h
          cases h
      | ok ms =>
          rw [archiveReadable, hmembers]
          rfl

/-- Where a reference does not become objects, its members fail. -/
theorem expand_eq_none_of_intoObjects {files : ObjectFiles} {basePath : BasePath} {orders : Orders}
    {contents : FileContents} {objRef : ObjectReference} {e : GetSymbolsError}
    (h : objRef.intoObjects orders contents = .error e)
    (hopen : files (Platform.components objRef.path) = .ok contents) {m : Member}
    (hm : m ∈ members objRef) : expand files basePath (.filed m) = none := by
  rw [expand, fst_of_mem_members hm, hopen]
  cases objRef with
  | regular path functions => cases h
  | archive path archiveInfo =>
      obtain ⟨entry, -, rfl⟩ := List.mem_map.mp hm
      rw [ObjectReference.intoObjects] at h
      cases hmembers : Crates.archiveMembers contents with
      | ok ms =>
          rw [hmembers] at h
          cases h
      | error error =>
          have hread : archiveReadable contents (some entry.1) = false := by
            rw [archiveReadable, hmembers]
            rfl
          simp [hread]

section Steps

variable [SymbolicationResult R] {env : Environment} {s s' : Traversal R} {files : ObjectFiles}
  {basePath : BasePath}

/-- **A STEP** expands some of the items, and makes their calls.  Of what they leave it
    keeps a part, and all where no two objects name one archive member. -/
theorem Step.expands (henv : env.Opens files) (hbase : s.pathMapper.basePath = basePath)
    (hasked : ∀ objRef ∈ s.remainingObjectReferences, members objRef ≠ []) (h : Step env s s') :
    s'.pathMapper.basePath = basePath ∧ ∃ us taken children kept rest,
      s.items = taken ++ rest ∧ taken ≠ [] ∧ Expands (expand files basePath) taken us children ∧
      s'.items ~ kept ++ rest ∧ kept <+~ children ∧ (s.CollisionFree → kept ~ children) ∧
      (addAll s.symbolicationResult us : Call GetSymbolsError R) = .ok s'.symbolicationResult := by
  cases h with
  | @lookUp object r queue m hcurrent hcollect =>
      -- a parsed object is looked up, and its references join the queue
      obtain ⟨hdwarf, references, hreferences, rfl⟩ := collect_eq_ok.mp hcollect
      refine ⟨(Dwarf.collect_basePath hdwarf).trans hbase, ?_⟩
      obtain ⟨us, hus, hadd⟩ := (Dwarf.collect_eq_ok hbase).mp ⟨m, hdwarf⟩
      have hnames : NamesReadable object := (objectReferences_eq_ok hreferences).1
      refine ⟨us, [.parsed object], (externalMembers object).map .filed,
        (references.flatMap members).map .filed, s.objects.map (fun e => .object e.1 e.2)
          ++ (s.remainingObjectReferences.flatMap members).map .filed, ?_, List.cons_ne_nil _ _,
        ?_, ?_, subperm_map _ (members_subperm hreferences), ?_, hadd⟩
      · exact items_of_current hcurrent
      · simpa using Expands.cons (expand_parsed hus hnames) .nil
      · -- the new references go to the end of the queue
        simp only [items, Option.toList_none, List.map_nil, List.nil_append, List.flatMap_append,
          List.map_append]
        rw [← List.append_assoc]
        exact List.perm_append_comm
      · intro hfree
        exact ((members_perm_iff hreferences).mpr (hfree object hcurrent)).map _
  | @parse data functions objects machoFile hcurrent hobjects hparse =>
      refine ⟨hbase, [], [.object data functions],
        [.parsed ⟨data, machoFile, translateAddressesToObject machoFile functions⟩],
        [.parsed ⟨data, machoFile, translateAddressesToObject machoFile functions⟩],
        objects.map (fun e => .object e.1 e.2)
          ++ (s.remainingObjectReferences.flatMap members).map .filed, ?_, List.cons_ne_nil _ _,
        ?_, .refl _, List.Subperm.refl _, fun _ => .refl _, rfl⟩
      · exact items_of_objects hcurrent hobjects
      · simpa using Expands.cons (expand_object hparse) .nil
  | @skip objRef references e hcurrent hobjects hqueue hopen =>
      rw [henv] at hopen
      -- a reference stands for its members, of which there is one at least
      have hne : members objRef ≠ [] := hasked objRef (hqueue ▸ List.mem_cons_self ..)
      refine ⟨hbase, [], (members objRef).map .filed, (members objRef).flatMap (fun _ => []),
        (members objRef).flatMap (fun _ => []), (references.flatMap members).map .filed, ?_,
        mt List.map_eq_nil_iff.mp hne, ?_, ?_, List.Subperm.refl _, fun _ => .refl _, rfl⟩
      · exact items_of_queue hcurrent hobjects hqueue
      · refine expands_of_forall ?_
        intro m hm
        exact expand_missing ((fst_of_mem_members hm).symm ▸ hopen)
      · rw [List.flatMap_eq_nil_iff.mpr (fun _ _ => rfl)]
        exact .refl _
  | @openFile objRef references contents objects hcurrent hobjects hqueue hopen hinto =>
      rw [henv] at hopen
      have hne : members objRef ≠ [] := hasked objRef (hqueue ▸ List.mem_cons_self ..)
      refine ⟨hbase, [], (members objRef).map .filed, (members objRef).flatMap (fun m =>
          (memberData contents m.2.1).toList.map (fun data => .object data m.2.2)),
        (members objRef).flatMap (fun m =>
          (memberData contents m.2.1).toList.map (fun data => .object data m.2.2)),
        (references.flatMap members).map .filed, ?_, mt List.map_eq_nil_iff.mp hne, ?_, ?_,
        List.Subperm.refl _, fun _ => .refl _, rfl⟩
      · exact items_of_queue hcurrent hobjects hqueue
      · refine expands_of_forall ?_
        intro m hm
        exact expand_opened ((fst_of_mem_members hm).symm ▸ hopen)
          (archiveReadable_of_intoObjects hinto hm)
      · simp only [items, Option.toList_none, List.map_nil, List.nil_append]
        refine List.Perm.append_right _ (((intoObjects_perm hinto).map _).trans ?_)
        refine List.Perm.of_eq ?_
        rw [List.filterMap_eq_flatMap_toList, List.map_flatMap]
        refine List.flatMap_congr ?_
        intro m _
        cases memberData contents m.2.1 with
        | none => rfl
        | some data => rfl

end Steps

/-! ## A run drains the worklist -/

section Runs

variable {env : Environment} {files : ObjectFiles} {basePath : BasePath} {requested : List Nat}
  {s s' : Traversal LookedUpAddresses}

/-- What every state of a traversal for `requested` has. -/
structure Sound (basePath : BasePath) (requested : List Nat) (s : Traversal LookedUpAddresses) :
    Prop where
  basePath : s.pathMapper.basePath = basePath
  members : ∀ objRef ∈ s.remainingObjectReferences, members objRef ≠ []
  addresses : s.addresses ⊆ requested
  slots : ∀ a ∈ requested, s.symbolicationResult.Has a

theorem Step.sound (hs : Sound basePath requested s) (h : Step env s s') :
    Sound basePath requested s' := by
  obtain ⟨us, hadd, hus⟩ := h.exists_updates
  have haddresses : s'.addresses ⊆ requested := fun a ha =>
    hs.addresses (h.addresses_subperm.subset (List.mem_append_left _ ha))
  have hslots : ∀ a ∈ requested, s'.symbolicationResult.Has a := by
    refine addAll_safe (LookedUpAddresses.safe (fun _ => True) trivial trivial requested)
      (fun u hu => ?_) hs.slots hadd
    exact hs.addresses (handedOut_subset s (hus.subset (List.mem_map_of_mem hu)))
  refine { basePath := ?_, members := ?_, addresses := haddresses, slots := hslots }
  · cases h with
    | lookUp hcurrent hcollect =>
        exact (Dwarf.collect_basePath (collect_eq_ok.mp hcollect).1).trans hs.basePath
    | parse => exact hs.basePath
    | skip => exact hs.basePath
    | openFile => exact hs.basePath
  · intro objRef hobjRef
    cases h with
    | lookUp hcurrent hcollect =>
        obtain ⟨-, references, hreferences, rfl⟩ := collect_eq_ok.mp hcollect
        rcases List.mem_append.mp hobjRef with hold | hnew
        · exact hs.members objRef hold
        · exact members_ne_nil hreferences hnew
    | parse => exact hs.members objRef hobjRef
    | skip _ _ hqueue => exact hs.members objRef (hqueue ▸ List.mem_cons_of_mem _ hobjRef)
    | openFile _ _ hqueue => exact hs.members objRef (hqueue ▸ List.mem_cons_of_mem _ hobjRef)

omit [Platform] in
/-- Calls about requested addresses answer. -/
theorem exists_addAll {r : LookedUpAddresses} {us : List DebugUpdate}
    (hr : ∀ a ∈ requested, r.Has a) (hus : ∀ u ∈ us, u.1 ∈ requested) :
    ∃ r', (addAll r us : Call GetSymbolsError LookedUpAddresses) = .ok r' := by
  induction us generalizing r with
  | nil => exact ⟨r, rfl⟩
  | cons u us ih =>
      rw [List.forall_mem_cons] at hus
      obtain ⟨entry, hentry⟩ := Option.isSome_iff_exists.mp (hr u.1 hus.1)
      have hfirst : (LookedUpAddresses.addAddressDebugInfo r u.1 u.2 : Call GetSymbolsError _)
          = .ok (r.setSlot u.1 (LookedUpAddresses.withFrames u.1 u.2.frames entry)) :=
        LookedUpAddresses.addAddressDebugInfo_eq_ok.mpr ⟨entry, hentry, rfl⟩
      obtain ⟨r', hr'⟩ := ih (r := r.setSlot u.1 _)
        (fun a ha => (LookedUpAddresses.has_setSlot (hr u.1 hus.1) _ a).mpr (hr a ha)) hus.2
      refine ⟨r', ?_⟩
      rw [addAll, List.foldlM_cons]
      exact Outcome.bind_eq_ok.mpr ⟨_, hfirst, hr'⟩

/-- Where a step fails, one of the items does. -/
theorem exists_failing_item (henv : env.Opens files) (hs : Sound basePath requested s)
    (h : ∀ next, machine env s ≠ .ok next) : ∃ item ∈ s.items, expand files basePath item = none := by
  have hno : ∀ s', ¬ Step env s s' := fun s' hstep => h _ hstep.machine_eq
  cases hcurrent : s.current with
  | some object =>
      refine ⟨.parsed object, ?_, ?_⟩
      · rw [items_of_current hcurrent]
        exact List.mem_cons_self ..
      rw [expand]
      split
      · next us hus =>
        split
        · next hnames =>
          -- the object can be looked up, so the step goes on
          obtain ⟨references, hreferences⟩ := exists_objectReferences GetSymbolsError env.orders hnames
          have hrequested : ∀ u ∈ us, u.1 ∈ requested := by
            intro u hu
            refine hs.addresses (handedOut_subset _ ?_)
            rw [handedOut, hcurrent, Option.toList_some, List.flatMap_singleton]
            exact (map_fst_debugUpdates hus).subset (List.mem_map_of_mem hu)
          obtain ⟨r', hr'⟩ := exists_addAll hs.slots hrequested
          obtain ⟨m', hm'⟩ := (Dwarf.collect_eq_ok hs.basePath).mpr ⟨us, hus, hr'⟩
          exact absurd (.lookUp hcurrent (collect_eq_ok.mpr ⟨hm', references, hreferences, rfl⟩))
            (hno _)
        · rfl
      · rfl
  | none =>
  cases hobjects : s.objects with
  | cons object objects =>
      refine ⟨.object object.1 object.2, ?_, ?_⟩
      · rw [items_of_objects hcurrent hobjects]
        exact List.mem_cons_self ..
      · rw [expand]
        cases hparse : Crates.parseFile object.1 with
        | error e => rfl
        | ok machoFile => exact absurd (.parse hcurrent hobjects hparse) (hno _)
  | nil =>
  cases hqueue : s.remainingObjectReferences with
  | nil =>
      have hstop : machine env s = .ok none := by
        obtain ⟨r, m, queue, objects, current⟩ := s
        cases hcurrent
        cases hobjects
        cases hqueue
        rfl
      exact absurd hstop (h none)
  | cons objRef references =>
      obtain ⟨m, hm⟩ := List.exists_mem_of_ne_nil _
        (hs.members objRef (hqueue ▸ List.mem_cons_self ..))
      refine ⟨.filed m, ?_, ?_⟩
      · rw [items_of_queue hcurrent hobjects hqueue]
        exact List.mem_append_left _ (List.mem_map_of_mem hm)
      · cases hopen : env.helper.openFile (.path objRef.path) with
        | error e => exact absurd (.skip hcurrent hobjects hqueue hopen) (hno _)
        | ok contents =>
            cases hinto : objRef.intoObjects env.orders contents with
            | ok objects => exact absurd (.openFile hcurrent hobjects hqueue hopen hinto) (hno _)
            | error e =>
                rw [henv] at hopen
                exact expand_eq_none_of_intoObjects hinto hopen hm

/-- The traversal stops when no work is left. -/
theorem items_eq_nil_of_stop (h : machine env s = .ok none) : s.items = [] := by
  obtain ⟨r, m, queue, objects, current⟩ := s
  cases current with
  | some object =>
      obtain ⟨_, -, heq⟩ := Outcome.bind_eq_ok.mp h
      cases heq
  | none =>
      match objects, queue with
      | (data, functions) :: objects, _ =>
          obtain ⟨_, -, heq⟩ := Outcome.bind_eq_ok.mp h
          cases heq
      | [], [] => rfl
      | [], objRef :: references =>
          have hstep : stepReference env
              (⟨r, m, objRef :: references, [], none⟩ : Traversal LookedUpAddresses) objRef references
                = .ok none := h
          rw [stepReference] at hstep
          split at hstep
          · cases hstep
          · obtain ⟨_, -, heq⟩ := Outcome.bind_eq_ok.mp hstep
            cases heq

/-- **A RUN DRAINS THE WORKLIST**, or the worklist cannot be drained. -/
theorem run_drains {envs : Nat → Environment} (henvs : ∀ n, (envs n).Opens files) {fuel : Nat}
    (hs : Sound basePath requested s)
    (hfree : ∀ t : Traversal LookedUpAddresses, machine.Visits envs s t → t.CollisionFree)
    (hrun : machine.run envs fuel s ≠ .unfinished) :
    (∃ (t : Traversal LookedUpAddresses) (us o : List DebugUpdate),
      machine.run envs fuel s = .ok t ∧
      (addAll s.symbolicationResult us : Call GetSymbolsError _) = .ok t.symbolicationResult ∧
      Drains (expand files basePath) s.items o ∧ o ~ us) ∨
    ((∀ t, machine.run envs fuel s ≠ .ok t) ∧ ∀ o, ¬ Drains (expand files basePath) s.items o) := by
  induction fuel generalizing envs s with
  | zero => exact absurd rfl hrun
  | succ fuel ih =>
      rw [StepFunction.run] at hrun ⊢
      -- a step only fails at an item, and a list with that item is never drained
      have hfail : (∀ next, machine (envs 0) s ≠ .ok next) →
          ∀ o, ¬ Drains (expand files basePath) s.items o := by
        intro hstep o ho
        obtain ⟨item, hitem, hnone⟩ := exists_failing_item (henvs 0) hs hstep
        exact ho.expand_ne_none hitem hnone
      cases hstep : machine (envs 0) s with
      | err e =>
          exact Or.inr ⟨(fun _ h => by cases h), hfail (fun _ h => by cases hstep.symm.trans h)⟩
      | panic site =>
          exact Or.inr ⟨(fun _ h => by cases h), hfail (fun _ h => by cases hstep.symm.trans h)⟩
      | unfinished =>
          rw [hstep] at hrun
          exact absurd rfl hrun
      | ok next =>
          cases next with
          | none =>
              refine Or.inl ⟨s, [], [], rfl, rfl, ?_, .refl _⟩
              rw [items_eq_nil_of_stop hstep]
              exact .nil
          | some s' =>
              rw [hstep] at hrun
              have hone := Step.of_step hstep
              obtain ⟨-, us, taken, children, kept, rest, hitems, -, hexpands, hitems', -, hall, hadd⟩ :=
                hone.expands (henvs 0) hs.basePath hs.members
              -- without a collision nothing is lost: what is left is all that the step leads to
              have hitems' := hitems'.trans ((hall (hfree s .here)).append_right rest)
              rcases ih (fun n => henvs (n + 1)) (hone.sound hs)
                (fun t ht => hfree t (.later hstep ht)) hrun with
                ⟨t, vs, o, hrun', hadd', hdrains, hperm⟩ | ⟨hno, hdrains⟩
              · obtain ⟨o₁, hdrains₁, hperm₁⟩ := hdrains.perm hitems'
                obtain ⟨o₂, hdrains₂, hperm₂⟩ := Drains.of_expands hexpands hdrains₁
                refine Or.inl ⟨t, us ++ vs, o₂, hrun', ?_, hitems ▸ hdrains₂, ?_⟩
                · rw [addAll_append, hadd]
                  exact hadd'
                · exact hperm₂.trans ((hperm₁.symm.trans hperm).append_left us)
              · refine Or.inr ⟨hno, fun o ho => ?_⟩
                rw [hitems] at ho
                obtain ⟨o₁, hdrains₁, -⟩ := Drains.expands hexpands ho
                obtain ⟨o₂, hdrains₂, -⟩ := hdrains₁.perm hitems'.symm
                exact hdrains o₂ hdrains₂

end Runs

/-! ## One answer for an address -/

section Trail

variable {files : ObjectFiles} {basePath : BasePath}

/-- Where the data is that a filed address leads to. -/
def located (files : ObjectFiles) (x : FiledAddress) : Option RangeReadRef := do
  let contents ← (files x.path).toOption
  memberData contents x.nameInArchive

theorem next_eq_onward {x : FiledAddress} {data : RangeReadRef} {obj : ObjectFile} {p : AddressPair}
    (hlocated : located files x = some data)
    (hlanding : landingIn data (x.function, x.address) = some (obj, p)) :
    next files x = onward obj p := by
  have hnext : next files x = (located files x).bind
      (fun data => onwardFrom data (x.function, x.address)) := by
    rw [next, located]
    cases (files x.path).toOption with
    | none => rfl
    | some contents => rfl
  rw [hnext, hlocated, Option.bind_some, onwardFrom, hlanding]
  rfl

omit [Platform] in
/-- An address keeps its name on landing. -/
theorem original_of_landingIn {data : RangeReadRef} {q : Bytes × AddressWithOffset}
    {obj : ObjectFile} {p : AddressPair} (h : landingIn data q = some (obj, p)) :
    p.originalRelativeAddress = q.2.originalRelativeAddress := by
  obtain ⟨obj', -, h⟩ := Option.bind_eq_some_iff.mp h
  obtain ⟨p', hland, heq⟩ := Option.bind_eq_some_iff.mp h
  obtain ⟨-, rfl⟩ := Prod.mk.inj (Option.some.inj heq)
  obtain ⟨symbol, -, rfl⟩ := Option.map_eq_some_iff.mp hland
  rfl

omit [Crates] in
theorem original_of_onward {obj : ObjectFile} {p : AddressPair} {y : FiledAddress}
    (h : onward obj p = some y) : y.address.originalRelativeAddress = p.originalRelativeAddress := by
  obtain ⟨f, -, hrefiled⟩ := Option.bind_eq_some_iff.mp h
  obtain ⟨file, -, rfl⟩ := Option.map_eq_some_iff.mp hrefiled
  rfl

/-- An address keeps its name on its way. -/
theorem original_of_next {x y : FiledAddress} (h : next files x = some y) :
    y.address.originalRelativeAddress = x.address.originalRelativeAddress := by
  obtain ⟨contents, -, h⟩ := Option.bind_eq_some_iff.mp h
  obtain ⟨data, -, h⟩ := Option.bind_eq_some_iff.mp h
  obtain ⟨⟨obj, p⟩, hlanding, honward⟩ := Option.bind_eq_some_iff.mp h
  exact (original_of_onward honward).trans (original_of_landingIn hlanding)

theorem original_of_leads {x y : FiledAddress} (h : Chain.Leads (next files) x y) :
    y.address.originalRelativeAddress = x.address.originalRelativeAddress :=
  h.invariant
    (I := fun z => z.address.originalRelativeAddress = x.address.originalRelativeAddress) rfl
    (fun _ _ hz hnext => (original_of_next hnext).trans hz)

/-- The addresses of an item are on the way from `origins`. -/
def OnTrail (files : ObjectFiles) (origins : List FiledAddress) : Item → Prop
  | .filed m => ∀ x ∈ filedAddresses m, ∃ t ∈ origins, Chain.Leads (next files) t x
  | .object data functions => ∀ q ∈ filings functions, ∃ t ∈ origins, ∃ x,
      Chain.Leads (next files) t x ∧ (x.function, x.address) = q ∧ located files x = some data
  | .parsed object =>
      object.addresses.Pairwise (fun p q => p.vmaddrInThisObject ≤ q.vmaddrInThisObject) ∧
        ∀ p ∈ object.addresses, ∃ t ∈ origins, ∃ x, Chain.Leads (next files) t x ∧
          located files x = some object.data ∧
          landingIn object.data (x.function, x.address) = some (object.machoFile, p)

/-- A call is what the debug info says where the way of its address ends. -/
def AtTheEnd (files : ObjectFiles) (basePath : BasePath) (origins : List FiledAddress)
    (u : DebugUpdate) : Prop :=
  ∃ t ∈ origins, ∃ x data obj p, Chain.Leads (next files) t x ∧ next files x = none ∧
    located files x = some data ∧ landingIn data (x.function, x.address) = some (obj, p) ∧
    p.originalRelativeAddress = u.1 ∧ Reports GetSymbolsError basePath data obj p u.2

/-- An item on the trail leaves items on the trail. -/
theorem OnTrail.expand {origins : List FiledAddress} {item : Item} {us : List DebugUpdate}
    {children : List Item} (h : OnTrail files origins item)
    (hexpand : expand files basePath item = some (us, children)) :
    (∀ u ∈ us, AtTheEnd files basePath origins u) ∧ ∀ c ∈ children, OnTrail files origins c := by
  cases item with
  | filed m =>
      rw [Traversal.expand] at hexpand
      split at hexpand
      · cases hexpand
        exact ⟨(fun _ hu => by cases hu), fun _ hc => by cases hc⟩
      · next contents hopen =>
        split at hexpand
        · cases hexpand
          refine ⟨(fun _ hu => by cases hu), fun c hc => ?_⟩
          -- what is filed in a file that can be opened waits in its object
          obtain ⟨data, hdata, rfl⟩ := List.mem_map.mp hc
          intro q hq
          have hx : (⟨m.1, m.2.1, q.1, q.2⟩ : FiledAddress) ∈ filedAddresses m := by
            rw [filedAddresses_eq]
            exact List.mem_map.mpr ⟨q, hq, rfl⟩
          obtain ⟨t, ht, hleads⟩ := h _ hx
          refine ⟨t, ht, _, hleads, rfl, ?_⟩
          rw [located, hopen]
          exact Option.mem_toList.mp hdata
        · cases hexpand
  | object data functions =>
      rw [Traversal.expand] at hexpand
      split at hexpand
      · cases hexpand
      · next machoFile hparse =>
        cases hexpand
        refine ⟨(fun _ hu => by cases hu), fun c hc => ?_⟩
        rw [List.mem_singleton] at hc
        subst hc
        refine ⟨translateAddressesToObject_pairwise machoFile functions, fun p hp => ?_⟩
        -- an address lands where the object has its function
        have hland := (translateAddressesToObject_perm machoFile functions).mem_iff.mp hp
        obtain ⟨q, hq, hqp⟩ := List.mem_filterMap.mp hland
        obtain ⟨t, ht, x, hleads, rfl, hlocated⟩ := h q hq
        refine ⟨t, ht, x, hleads, hlocated, ?_⟩
        rw [landingIn, hparse]
        exact Option.bind_eq_some_iff.mpr ⟨machoFile, rfl,
          Option.bind_eq_some_iff.mpr ⟨p, hqp, rfl⟩⟩
  | parsed object =>
      obtain ⟨hsorted, htrail⟩ := h
      rw [Traversal.expand] at hexpand
      split at hexpand
      · next us' hus =>
        split at hexpand
        · cases hexpand
          constructor
          · -- an address that is looked up here goes no further
            intro u hu
            obtain ⟨p, hp, haddress, hreports⟩ := reports_of_mem hus hu
            have hmem := (addresses_perm object.machoFile object.addresses).mem_iff.mpr
              (List.mem_append_left _ hp)
            obtain ⟨t, ht, x, hleads, hlocated, hlanding⟩ := htrail p hmem
            refine ⟨t, ht, x, _, _, p, hleads, ?_, hlocated, hlanding, haddress, hreports⟩
            rw [next_eq_onward hlocated hlanding, onward,
              AddressSplit.owner_of_mem_internal hsorted hp]
            rfl
          · -- every other one is passed on, by one more hop of its journey
            intro c hc
            obtain ⟨m, hm, rfl⟩ := List.mem_map.mp hc
            intro y hy
            have hpassed := (externalMembers_subperm object.machoFile object.addresses).subset
              (List.mem_flatMap.mpr ⟨m, hm, hy⟩)
            obtain ⟨p, hp, honward⟩ :=
              List.mem_filterMap.mp ((passedOn_subperm hsorted).subset hpassed)
            obtain ⟨t, ht, x, hleads, hlocated, hlanding⟩ := htrail p hp
            refine ⟨t, ht, hleads.tail ?_⟩
            rw [next_eq_onward hlocated hlanding]
            exact honward
        · cases hexpand
      · cases hexpand

/-- Two calls about one address, from origins that file it in one place, are one. -/
theorem AtTheEnd.unique {origins : List FiledAddress}
    (horigins : ∀ t ∈ origins, ∀ t' ∈ origins,
      t.address.originalRelativeAddress = t'.address.originalRelativeAddress → t = t')
    {u v : DebugUpdate} (hu : AtTheEnd files basePath origins u)
    (hv : AtTheEnd files basePath origins v) (heq : u.1 = v.1) : u = v := by
  obtain ⟨t, ht, x, data, obj, p, hleads, hlast, hlocated, hlanding, haddress, hreports⟩ := hu
  obtain ⟨t', ht', x', data', obj', p', hleads', hlast', hlocated', hlanding', haddress',
    hreports'⟩ := hv
  have htt : t = t' := by
    refine horigins t ht t' ht' ?_
    rw [← original_of_leads hleads, ← original_of_leads hleads']
    exact (original_of_landingIn hlanding).symm.trans
      ((haddress.trans (heq.trans haddress'.symm)).trans (original_of_landingIn hlanding'))
  subst htt
  have hxx := hleads.last_unique hleads' hlast hlast'
  subst hxx
  rw [hlocated, Option.some.injEq] at hlocated'
  subst hlocated'
  rw [hlanding, Option.some.injEq, Prod.mk.injEq] at hlanding'
  obtain ⟨rfl, rfl⟩ := hlanding'
  exact Prod.ext heq (hreports.unique hreports')

end Trail

end Order

end ProfilerGetSymbols.Traversal
