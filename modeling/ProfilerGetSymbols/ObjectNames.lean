import ProfilerGetSymbols.ObjectReferences

/-! # Object names — archives and their members

    A linker names an object file by its path, and the member of an archive by
    the archive's path and the member's name, as `path(member)`.  The traversal
    takes such names apart again: everything before the first parenthesis is the
    path, and what is left without parentheses at its ends is the member.

    A path may have parentheses itself.  `queuedAsJoined_iff` says that a name
    is taken apart as it was joined exactly if its path has none. -/

namespace ProfilerGetSymbols.ObjectReferences

open ProgLib Paths
open scoped List

/-- The name that the linker gives a member of an archive. -/
def joinedName (path nameInArchive : String) : String := path ++ "(" ++ nameInArchive ++ ")"

/-! ## Splitting a name -/

/-- A name splits at its first parenthesis. -/
theorem splitObjectName_of_append {name : String} {path rest : List Char} (hpath : '(' ∉ path)
    (hname : name.toList = path ++ '(' :: rest) :
    splitObjectName name = (.ofString (String.ofList path),
      some (String.ofList ((rest.dropWhile (· = '(')).rdropWhile (· = ')')))) := by
  have hall : ∀ c ∈ path, decide (c ≠ '(') = true :=
    fun c hc => decide_eq_true (fun h => hpath (h ▸ hc))
  have htake : name.toList.takeWhile (· ≠ '(') = path := by
    rw [hname, List.takeWhile_append_of_pos hall, List.takeWhile_cons_of_neg (by simp),
      List.append_nil]
  have hdrop : name.toList.dropWhile (· ≠ '(') = '(' :: rest := by
    rw [hname, List.dropWhile_append_of_pos hall, List.dropWhile_cons_of_neg (by simp)]
  simp only [splitObjectName, htake, hdrop]
  rw [List.dropWhile_cons_of_pos (by simp)]

/-- A name without a parenthesis is a path. -/
theorem splitObjectName_of_not_mem {name : String} (h : '(' ∉ name.toList) :
    splitObjectName name = (.ofString name, none) := by
  have hall : ∀ c ∈ name.toList, decide (c ≠ '(') = true :=
    fun c hc => decide_eq_true (fun heq => h (heq ▸ hc))
  have htake : name.toList.takeWhile (· ≠ '(') = name.toList := List.takeWhile_eq_self_iff.mpr hall
  have hdrop : name.toList.dropWhile (· ≠ '(') = [] := List.dropWhile_eq_nil_iff.mpr hall
  simp only [splitObjectName, htake, hdrop, String.ofList_toList]

/-- The path that a name with a parenthesis splits off has none. -/
theorem splitObjectName_of_mem {name : String} (h : '(' ∈ name.toList) :
    ∃ path nameInArchive, '(' ∉ path.toList ∧
      splitObjectName name = (.ofString path, some nameInArchive) := by
  obtain ⟨path, rest, hname, hpath⟩ := List.eq_append_cons_of_mem h
  refine ⟨String.ofList path, _, ?_, splitObjectName_of_append hpath hname⟩
  rw [String.toList_ofList]
  exact hpath

/-- **SPLITTING UNDOES JOINING** where the path has no parenthesis. -/
theorem splitObjectName_joinedName {path nameInArchive : String} (hpath : '(' ∉ path.toList)
    (hne : nameInArchive ≠ "") (hopen : '(' ∉ nameInArchive.toList)
    (hclose : ')' ∉ nameInArchive.toList) :
    splitObjectName (joinedName path nameInArchive) = (.ofString path, some nameInArchive) := by
  have hname : (joinedName path nameInArchive).toList
      = path.toList ++ '(' :: (nameInArchive.toList ++ [')']) := by
    simp [joinedName]
  rw [splitObjectName_of_append hpath hname, String.ofList_toList]
  -- the member begins with no parenthesis and ends with none
  have hdrop : (nameInArchive.toList ++ [')']).dropWhile (· = '(') = nameInArchive.toList ++ [')'] := by
    cases hm : nameInArchive.toList with
    | nil => exact absurd (String.toList_eq_nil_iff.mp hm) hne
    | cons c cs =>
        rw [List.cons_append, List.dropWhile_cons_of_neg]
        rw [hm] at hopen
        simpa [eq_comm] using List.ne_of_not_mem_cons hopen
  have hrdrop : (nameInArchive.toList ++ [')']).rdropWhile (· = ')') = nameInArchive.toList := by
    rw [List.rdropWhile_concat_pos _ _ _ (by simp), List.rdropWhile_eq_self_iff]
    intro hm
    have hlast := List.getLast_mem hm
    rw [decide_eq_true_iff]
    intro heq
    rw [heq] at hlast
    exact hclose hlast
  rw [hdrop, hrdrop, String.ofList_toList]

/-! ## Queueing a name -/

section Queueing

variable [Platform]

/-- Functions are filed in a regular file, or under a member of an archive. -/
def Filed.add (filed : Filed) (file : PathBuf × Option String) (functions : FunctionsWithAddresses) :
    Filed :=
  match file with
  | (path, some nameInArchive) =>
      { filed with archives := filed.archives.insertIn path nameInArchive functions }
  | (path, none) => { filed with references := filed.references ++ [.regular path functions] }

/-- The queue asks for a file: a regular reference brings the functions, and an
    archive reference asks for the member. -/
def AsksFor (queue : List ObjectReference) (file : PathBuf × Option String)
    (functions : FunctionsWithAddresses) : Prop :=
  match file with
  | (path, some nameInArchive) => ∃ objRef ∈ queue, ∃ functions',
      (Platform.components path, some nameInArchive, functions') ∈ members objRef
  | (path, none) => .regular path functions ∈ queue

theorem fileUnderObject_eq_add {ε : Type} {objects : List Bytes} {name : String} {objectIndex : Nat}
    (h : objectName objects objectIndex = some name) (filed : Filed)
    (functions : FunctionsWithAddresses) :
    (fileUnderObject objects filed (objectIndex, functions) : Call ε Filed)
      = .ok (filed.add (splitObjectName name) functions) := by
  rw [objectName, Option.bind_eq_some_iff] at h
  obtain ⟨object, hobject, hname⟩ := h
  simp only [fileUnderObject, hobject, hname, Outcome.unwrap, Outcome.ok_bind, Filed.add]
  rcases splitObjectName name with ⟨path, _ | nameInArchive⟩
  · rfl
  · rfl

/-- The first name that is filed can be read off. -/
theorem Filed.add_injective {file file' : PathBuf × Option String} {functions : FunctionsWithAddresses}
    (h : (⟨[], .empty⟩ : Filed).add file functions = (⟨[], .empty⟩ : Filed).add file' functions) :
    file = file' := by
  obtain ⟨path, _ | nameInArchive⟩ := file
  · obtain ⟨path', _ | nameInArchive'⟩ := file'
    · have hreferences := congrArg Filed.references h
      simp only [Filed.add, List.nil_append, List.cons.injEq, ObjectReference.regular.injEq] at hreferences
      rw [hreferences.1.1]
    · have hreferences := congrArg Filed.references h
      cases hreferences
  · obtain ⟨path', _ | nameInArchive'⟩ := file'
    · have hreferences := congrArg Filed.references h
      cases hreferences
    · have harchives : [(path, HashMap.empty.insert nameInArchive functions)]
          = [(path', HashMap.empty.insert nameInArchive' functions)] :=
        congrArg (fun filed => filed.archives.entries) h
      obtain ⟨hpath, hinfo⟩ := Prod.mk.inj (List.cons.inj harchives).1
      have hmember : [(nameInArchive, functions)] = [(nameInArchive', functions)] :=
        congrArg HashMap.entries hinfo
      rw [hpath, (Prod.mk.inj (List.cons.inj hmember).1).1]

/-- **EVERY NAME IS QUEUED** as it is split: no collision takes a file out of the queue. -/
theorem asksFor_of_objectReferences {ε : Type} {orders : Orders} {objects : List Bytes}
    {external : HashMap Nat FunctionsWithAddresses} {references : List ObjectReference}
    (h : (objectReferences orders objects external : Call ε _) = .ok references)
    {e : Nat × FunctionsWithAddresses} (he : e ∈ external.entries) {name : String}
    (hname : objectName objects e.1 = some name) :
    AsksFor references (splitObjectName name) e.2 := by
  rcases hsplit : splitObjectName name with ⟨path, _ | nameInArchive⟩
  · rw [objectReferences, Outcome.bind_eq_ok] at h
    obtain ⟨filed, hfiled, h⟩ := h
    obtain ⟨-, rfl⟩ := foldlM_fileUnderObject_eq_ok.mp hfiled
    rw [Outcome.pure_eq_ok, Outcome.ok.injEq] at h
    subst h
    refine List.mem_append_left _ (List.mem_map.mpr ⟨(path, e.2), ?_, rfl⟩)
    refine List.mem_filterMap.mpr ⟨e, orders.externalFunsByObject.mem_order.mpr he, ?_⟩
    simp [regularTarget, hname, hsplit]
  · obtain ⟨-, l, hl, hmembers⟩ := objectReferences_eq_ok h
    have htarget : (path, nameInArchive, e.2) ∈ l.filterMap (archiveTarget objects) :=
      List.mem_filterMap.mpr ⟨e, hl.mem_iff.mpr he, by simp [archiveTarget, hname, hsplit]⟩
    -- a member stays among the keys, whoever inserts under it later
    have hkey : (Platform.components path, nameInArchive)
        ∈ ((HashMap.empty.insertAllIn (l.filterMap (archiveTarget objects))).triples
          Platform.components).map (fun t => (t.1, t.2.1)) :=
      HashMap.mem_keys_insertAllIn (fun a b hab => PathBuf.beq_iff.mp hab)
        (Or.inl (List.mem_map.mpr ⟨_, htarget, rfl⟩))
    obtain ⟨⟨path', nameInArchive', functions'⟩, htriple, heq⟩ := List.mem_map.mp hkey
    obtain ⟨rfl, rfl⟩ := Prod.mk.inj heq
    have hmember : (Platform.components path, some _, functions')
        ∈ references.flatMap members :=
      hmembers.mem_iff.mpr (List.mem_append_right _ (List.mem_map.mpr ⟨_, htriple, rfl⟩))
    obtain ⟨objRef, hobjRef, hm⟩ := List.mem_flatMap.mp hmember
    exact ⟨objRef, hobjRef, functions', hm⟩

variable [Crates]

/-- **HOW AN OBJECT NAME IS QUEUED**: the loop files the object's functions in the file,
    and after the call the queue asks for it. -/
structure QueuedAs (name : String) (file : PathBuf × Option String) : Prop where
  filed : ∀ (objects : List Bytes) (filed : Filed) (objectIndex : Nat)
    (functions : FunctionsWithAddresses), objectName objects objectIndex = some name →
    (fileUnderObject objects filed (objectIndex, functions) : Call GetSymbolsError Filed)
      = .ok (filed.add file functions)
  queued : ∀ (R : Type) [SymbolicationResult R] (orders : Orders) (fileData : RangeReadRef)
    (obj : ObjectFile) (addresses : List AddressPair) (result result' : R)
    (remaining queue : List ObjectReference) (pathMapper pathMapper' : PathMapper Unit),
    (collectDebugInfoAndObjectReferences orders fileData obj addresses result remaining pathMapper
      : Call GetSymbolsError _) = .ok (result', queue, pathMapper') →
    ∀ e ∈ (externalFunsByObject obj addresses).entries,
      objectName obj.objectMap.objects e.1 = some name →
      ∃ references, queue = remaining ++ references ∧ AsksFor references file e.2

/-- A name is queued as it is split, and in no other way. -/
theorem queuedAs_iff {name : String} {file : PathBuf × Option String} :
    QueuedAs name file ↔ splitObjectName name = file := by
  constructor
  · intro h
    have hname : objectName [asBytes name] 0 = some name := fromUtf8_asBytes name
    have hfiled := h.filed [asBytes name] ⟨[], .empty⟩ 0 .empty hname
    rw [fileUnderObject_eq_add hname, Outcome.ok.injEq] at hfiled
    exact Filed.add_injective hfiled
  · rintro rfl
    refine ⟨fun objects filed objectIndex functions h => fileUnderObject_eq_add h filed functions, ?_⟩
    intro R _ orders fileData obj addresses result result' remaining queue m m' hcollect e he hname
    obtain ⟨-, references, hreferences, hqueue⟩ := collect_eq_ok.mp hcollect
    exact ⟨references, hqueue, asksFor_of_objectReferences hreferences he hname⟩

/-- **WHEN NAMES ARE SPLIT AS THE LINKER JOINED THEM**: a member is queued as the member
    of its archive exactly if the archive's path has no opening parenthesis, and a
    name is queued as a regular file exactly if it has none. -/
theorem queuedAsJoined_iff (path nameInArchive : String) (hne : nameInArchive ≠ "")
    (hopen : '(' ∉ nameInArchive.toList) (hclose : ')' ∉ nameInArchive.toList) (name : String) :
    (QueuedAs (joinedName path nameInArchive) (.ofString path, some nameInArchive) ↔
        '(' ∉ path.toList) ∧
      (QueuedAs name (.ofString name, none) ↔ '(' ∉ name.toList) := by
  rw [queuedAs_iff, queuedAs_iff]
  refine ⟨⟨?_, fun h => splitObjectName_joinedName h hne hopen hclose⟩,
    ⟨?_, splitObjectName_of_not_mem⟩⟩
  · intro h hmem
    have hjoined : '(' ∈ (joinedName path nameInArchive).toList := by simp [joinedName]
    obtain ⟨path', nameInArchive', hpath', hsplit⟩ := splitObjectName_of_mem hjoined
    rw [hsplit] at h
    have hbytes : asBytes path' = asBytes path := congrArg PathBuf.bytes (Prod.mk.inj h).1
    exact hpath' (asBytes_injective hbytes ▸ hmem)
  · intro h hmem
    obtain ⟨path', nameInArchive', -, hsplit⟩ := splitObjectName_of_mem hmem
    rw [hsplit] at h
    cases (Prod.mk.inj h).2

end Queueing

/-! ## A directory with a parenthesis -/

section Samples

local instance : Platform := unix

local instance : Crates := Crates.nothing

/-- A member of an archive in a plain directory, and an object file. -/
theorem queuedAsJoined_iff_plain :
    (QueuedAs (joinedName "/build/lib.a" "f.o") (.ofString "/build/lib.a", some "f.o") ↔
        '(' ∉ "/build/lib.a".toList) ∧
      (QueuedAs "/build/f.o" (.ofString "/build/f.o", none) ↔ '(' ∉ "/build/f.o".toList) :=
  queuedAsJoined_iff "/build/lib.a" "f.o" (by decide) (by decide) (by decide) "/build/f.o"

/-- In a directory `build (1)` neither is found. -/
theorem not_queuedAsJoined_parenthesis :
    ¬ QueuedAs (joinedName "/build (1)/lib.a" "f.o") (.ofString "/build (1)/lib.a", some "f.o") ∧
      ¬ QueuedAs "/build (1)/f.o" (.ofString "/build (1)/f.o", none) := by
  rw [queuedAs_iff, queuedAs_iff]
  constructor
  · intro h
    have hbytes := congrArg (fun file => file.1.bytes) h
    exact absurd hbytes (by decide)
  · intro h
    cases (Prod.mk.inj h).2

end Samples

end ProfilerGetSymbols.ObjectReferences
