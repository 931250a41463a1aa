import Mathlib

/-! # JSON values — what a writer writes and a reader makes of it

    A value is a tree; an object is the list of its members in the order in which
    they stand in the text, repeated names and all.

    A record is written as an object with one member for each field, and some
    fields are left out where they are empty.  A reader of records takes an object,
    with its members in any order and foreign ones among them, or an array of the
    fields in order.  No field may be there twice. -/

namespace ProgLib

/-- A number, by the kind that a reader takes it for. -/
inductive Json.Number where
  | natural (n : Nat)
  | negative (n : Nat)
  /-- With a fraction or an exponent, or out of range. -/
  | decimal (text : String)
  deriving DecidableEq, Repr

inductive Json where
  | null
  | bool (b : Bool)
  | number (n : Json.Number)
  | string (s : String)
  | array (elems : List Json)
  | object (members : List (String × Json))

namespace Json

/-- A natural number. -/
def nat (n : Nat) : Json := .number (.natural n)

/-- **PLAIN** values: every object names a member once, and numbers are natural. -/
inductive Plain : Json → Prop
  | null : Plain .null
  | bool (b : Bool) : Plain (.bool b)
  | nat (n : Nat) : Plain (.nat n)
  | string (s : String) : Plain (.string s)
  | array {elems : List Json} (h : ∀ j ∈ elems, Plain j) : Plain (.array elems)
  | object {members : List (String × Json)} (hnames : (members.map (·.1)).Nodup)
      (h : ∀ m ∈ members, Plain m.2) : Plain (.object members)

/-! ## Leaves -/

def string? : Json → Option String
  | .string s => some s
  | _ => none

def bool? : Json → Option Bool
  | .bool b => some b
  | _ => none

def nat? : Json → Option Nat
  | .number (.natural n) => some n
  | _ => none

def elems? : Json → Option (List Json)
  | .array elems => some elems
  | _ => none

def members? : Json → Option (List (String × Json))
  | .object members => some members
  | _ => none

theorem string?_eq_some {j : Json} {s : String} : j.string? = some s ↔ j = .string s := by
  cases j <;> simp [string?]

theorem nat?_eq_some {j : Json} {n : Nat} : j.nat? = some n ↔ j = .nat n := by
  cases j with
  | number k => cases k <;> simp [nat?, nat]
  | _ => simp [nat?, nat]

theorem elems?_eq_some {j : Json} {elems : List Json} :
    j.elems? = some elems ↔ j = .array elems := by
  cases j <;> simp [elems?]

theorem members?_eq_some {j : Json} {members : List (String × Json)} :
    j.members? = some members ↔ j = .object members := by
  cases j <;> simp [members?]

/-! ## Arrays -/

section Arrays

variable {α : Type}

/-- An array, read element by element. -/
def list? (read : Json → Option α) (j : Json) : Option (List α) := do
  let elems ← j.elems?
  elems.mapM read

theorem mapM_eq_some {β : Type} {f : α → Option β} {l : List α} {l' : List β} :
    l.mapM f = some l' ↔ List.Forall₂ (fun a b => f a = some b) l l' := by
  induction l generalizing l' with
  | nil =>
      rw [List.mapM_nil, List.forall₂_nil_left_iff]
      exact ⟨fun h => (Option.some.inj h).symm, fun h => by rw [h]; rfl⟩
  | cons a l ih =>
      rw [List.mapM_cons, List.forall₂_cons_left_iff]
      constructor
      · intro h
        obtain ⟨b, hb, hrest⟩ := Option.bind_eq_some_iff.mp h
        obtain ⟨bs, hbs, heq⟩ := Option.bind_eq_some_iff.mp hrest
        exact ⟨b, bs, hb, ih.mp hbs, (Option.some.inj heq).symm⟩
      · rintro ⟨b, bs, hb, hbs, rfl⟩
        rw [hb, ih.mpr hbs]
        rfl

theorem list?_eq_some {read : Json → Option α} {j : Json} {l : List α} :
    j.list? read = some l ↔
      ∃ elems, j = .array elems ∧ List.Forall₂ (fun e a => read e = some a) elems l := by
  rw [list?]
  constructor
  · intro h
    obtain ⟨elems, helems, hmap⟩ := Option.bind_eq_some_iff.mp h
    exact ⟨elems, elems?_eq_some.mp helems, mapM_eq_some.mp hmap⟩
  · rintro ⟨elems, rfl, hmap⟩
    exact mapM_eq_some.mpr hmap

/-- **ARRAYS ROUND-TRIP** where their elements do, up to a function of these. -/
theorem list?_array {β : Type} {read : Json → Option β} {write : α → Json} {f : α → β}
    {l : List α} (h : ∀ a ∈ l, read (write a) = some (f a)) :
    (Json.array (l.map write)).list? read = some (l.map f) := by
  rw [list?_eq_some]
  refine ⟨_, rfl, ?_⟩
  rw [List.forall₂_map_left_iff, List.forall₂_map_right_iff, List.forall₂_same]
  exact h

theorem Plain.array_map {write : α → Json} {l : List α} (h : ∀ a ∈ l, Plain (write a)) :
    Plain (.array (l.map write)) := by
  refine .array (fun j hj => ?_)
  obtain ⟨a, ha, rfl⟩ := List.mem_map.mp hj
  exact h a ha

/-- An object as a table: the names, and the values read one by one. -/
def table? (read : Json → Option α) (j : Json) : Option (List (String × α)) := do
  let members ← j.members?
  members.mapM (fun m => (m.1, ·) <$> read m.2)

/-- **TABLES ROUND-TRIP** where their values do. -/
theorem table?_object {β : Type} {read : Json → Option β} (write : α → Json) (f : α → β)
    {l : List (String × α)} (h : ∀ e ∈ l, read (write e.2) = some (f e.2)) :
    (Json.object (l.map (fun e => (e.1, write e.2)))).table? read
      = some (l.map (fun e => (e.1, f e.2))) := by
  show (l.map (fun e => (e.1, write e.2))).mapM _ = _
  rw [mapM_eq_some, List.forall₂_map_left_iff, List.forall₂_map_right_iff, List.forall₂_same]
  intro e he
  show (e.1, ·) <$> read (write e.2) = _
  rw [h e he]
  rfl

end Arrays

/-! ## Optional members -/

section Optional

variable {α β : Type}

/-- A member that is left out where there is no value. -/
def optional (name : String) (write : α → Json) : Option α → List (String × Json)
  | some a => [(name, write a)]
  | none => []

/-- A member that may be left out. -/
def optional? (name : String) (read : Json → Option β) (members : List (String × Json)) :
    Option (Option β) :=
  match members.lookup name with
  | some j => some <$> read j
  | none => some none

theorem lookup_cons_of_ne {name name' : String} (h : name ≠ name') (j : Json)
    (members : List (String × Json)) :
    ((name', j) :: members).lookup name = members.lookup name := by
  rw [List.lookup_cons, beq_false_of_ne h]

theorem lookup_optional_self (name : String) (write : α → Json) (a : Option α) :
    (optional name write a).lookup name = a.map write := by
  cases a with
  | none => rfl
  | some a => rw [optional, List.lookup_cons, beq_self_eq_true]; rfl

theorem lookup_optional_of_ne {name name' : String} (h : name ≠ name') (write : α → Json)
    (a : Option α) : (optional name' write a).lookup name = none := by
  cases a with
  | none => rfl
  | some a => exact lookup_cons_of_ne h _ _

/-- **OPTIONAL MEMBERS ROUND-TRIP** where their values do. -/
theorem optional?_of_lookup {name : String} {read : Json → Option β} {write : α → Json}
    {f : α → β} {a : Option α} {members : List (String × Json)}
    (hlookup : members.lookup name = a.map write) (h : ∀ b, read (write b) = some (f b)) :
    optional? name read members = some (a.map f) := by
  rw [optional?, hlookup]
  cases a with
  | none => rfl
  | some a =>
      show some <$> read (write a) = _
      rw [h a]
      rfl

theorem names_optional (name : String) (write : α → Json) (a : Option α) :
    ((optional name write a).map (·.1)).Sublist [name] := by
  cases a with
  | none => exact List.nil_sublist _
  | some a => exact List.Sublist.refl _

theorem plain_of_mem_optional {name : String} {write : α → Json} (h : ∀ a, Plain (write a))
    {a : Option α} {m : String × Json} (hm : m ∈ optional name write a) : Plain m.2 := by
  cases a with
  | none => cases hm
  | some a =>
      rw [List.mem_singleton.mp hm]
      exact h a

end Optional

/-- Members whose names are among different ones, in order. -/
theorem Plain.of_sublist {members : List (String × Json)} (names : List String)
    (hsub : (members.map (·.1)).Sublist names) (hnames : names.Nodup)
    (h : ∀ m ∈ members, Plain m.2) : Plain (.object members) :=
  .object (hnames.sublist hsub) h

/-! ## Records -/

/-- The value of the one member of that name. -/
def field? (members : List (String × Json)) (name : String) : Option Json :=
  match members.filter (fun m => m.1 == name) with
  | [m] => some m.2
  | _ => none

/-- The values of the fields, in order. -/
def fields? (names : List String) (members : List (String × Json)) : Option (List Json) :=
  names.mapM (field? members)

/-- The fields of a record, by name or by position. -/
def record? (names : List String) : Json → Option (List Json)
  | .object members => fields? names members
  | .array elems => if elems.length = names.length then some elems else none
  | _ => none

/-- The members hold these fields, in any order and with others among them. -/
def Holds (fields members : List (String × Json)) : Prop :=
  ∃ others, members.Perm (fields ++ others) ∧ ∀ m ∈ others, m.1 ∉ fields.map (·.1)

/-- A record with these fields, by name or by position. -/
inductive IsRecord (fields : List (String × Json)) : Json → Prop
  | byName {members : List (String × Json)} (h : Holds fields members) :
      IsRecord fields (.object members)
  | byPosition : IsRecord fields (.array (fields.map (·.2)))

/-- The members under another name. -/
def without (name : String) (members : List (String × Json)) : List (String × Json) :=
  members.filter (fun m => m.1 != name)

variable {members : List (String × Json)} {name : String} {j : Json}

theorem mem_without {m : String × Json} : m ∈ without name members ↔ m ∈ members ∧ m.1 ≠ name := by
  rw [without, List.mem_filter, bne_iff_ne]

theorem filter_eq_singleton_iff :
    members.filter (fun m => m.1 == name) = [(name, j)] ↔
      members.Perm ((name, j) :: without name members) := by
  have hcut := List.filter_append_perm (fun m : String × Json => m.1 == name) members
  have hnot : members.filter (fun m => !(m.1 == name)) = without name members := rfl
  rw [hnot] at hcut
  constructor
  · intro h
    rw [h] at hcut
    exact hcut.symm
  · intro h
    have hperm := h.filter (fun m => m.1 == name)
    have hself : (without name members).filter (fun m => m.1 == name) = [] := by
      rw [List.filter_eq_nil_iff]
      intro m hm heq
      exact (mem_without.mp hm).2 (beq_iff_eq.mp heq)
    rw [List.filter_cons, if_pos (beq_self_eq_true name), hself] at hperm
    exact List.perm_singleton.mp hperm

theorem field?_eq_some :
    field? members name = some j ↔ members.Perm ((name, j) :: without name members) := by
  rw [← filter_eq_singleton_iff, field?]
  constructor
  · intro h
    split at h
    · next m hm =>
        have hname : m ∈ members.filter (fun m => m.1 == name) := by
          rw [hm]
          exact List.mem_singleton_self m
        obtain ⟨n, v⟩ := m
        obtain rfl := beq_iff_eq.mp (List.mem_filter.mp hname).2
        rw [hm, ← Option.some.inj h]
    · cases h
  · intro h
    rw [h]

/-- A field is not among the members of other names. -/
theorem field?_without {other : String} (h : name ≠ other) :
    field? (without other members) name = field? members name := by
  have hfilter : (without other members).filter (fun m => m.1 == name)
      = members.filter (fun m => m.1 == name) := by
    rw [without, List.filter_filter]
    refine List.filter_congr (fun m _ => ?_)
    by_cases hm : m.1 = name
    · rw [hm, beq_self_eq_true, bne_iff_ne.mpr h]
      rfl
    · rw [beq_false_of_ne hm]
      rfl
  rw [field?, field?, hfilter]

theorem fields?_cons {names : List String} {values : List Json} :
    fields? (name :: names) members = some values ↔ ∃ v vs,
      field? members name = some v ∧ fields? names members = some vs ∧ values = v :: vs := by
  rw [fields?, mapM_eq_some, List.forall₂_cons_left_iff]
  simp only [fields?, mapM_eq_some]

theorem fields?_without {names : List String} (h : name ∉ names) :
    fields? names (without name members) = fields? names members := by
  induction names with
  | nil => rfl
  | cons n names ih =>
      rw [List.mem_cons, not_or] at h
      rw [fields?, fields?, List.mapM_cons, List.mapM_cons, field?_without (Ne.symm h.1)]
      exact congrArg (field? members n >>= ·) (funext fun v => by
        show (fields? names (without name members) >>= _) = (fields? names members >>= _)
        rw [ih h.2])

/-- **FIELDS BY NAME**: they are read where the members hold each of them once, in
    any order and with any other members among them. -/
theorem fields?_eq_some {names : List String} (hnames : names.Nodup) {values : List Json} :
    fields? names members = some values ↔
      values.length = names.length ∧ Holds (names.zip values) members := by
  induction names generalizing members values with
  | nil =>
      constructor
      · intro h
        obtain rfl : [] = values := Option.some.inj h
        exact ⟨rfl, members, .refl _, fun m _ => List.not_mem_nil⟩
      · rintro ⟨hlen, -⟩
        rw [List.length_eq_zero_iff.mp hlen]
        rfl
  | cons n names ih =>
      rw [List.nodup_cons] at hnames
      rw [fields?_cons]
      constructor
      · rintro ⟨v, vs, hv, hvs, rfl⟩
        rw [← fields?_without hnames.1] at hvs
        obtain ⟨hlen, others, hperm, hothers⟩ := (ih hnames.2).mp hvs
        refine ⟨by rw [List.length_cons, List.length_cons, hlen], others, ?_, ?_⟩
        · exact (field?_eq_some.mp hv).trans (hperm.cons _)
        · intro m hm
          have hmem : m ∈ without n members :=
            hperm.mem_iff.mpr (List.mem_append_right _ hm)
          rw [List.zip_cons_cons, List.map_cons, List.mem_cons, not_or]
          exact ⟨(mem_without.mp hmem).2, hothers m hm⟩
      · rintro ⟨hlen, others, hperm, hothers⟩
        cases values with
        | nil => cases hlen
        | cons v vs =>
            rw [List.length_cons, List.length_cons, Nat.succ_inj] at hlen
            rw [List.zip_cons_cons] at hperm hothers
            -- the members behind the first field have other names
            have hbehind : ∀ m ∈ names.zip vs ++ others, m.1 ≠ n := by
              intro m hm heq
              rcases List.mem_append.mp hm with hm | hm
              · have hname : m.1 ∈ (names.zip vs).map (·.1) := List.mem_map_of_mem hm
                rw [List.map_fst_zip (Nat.le_of_eq hlen.symm), heq] at hname
                exact hnames.1 hname
              · refine hothers m hm ?_
                rw [heq]
                exact List.mem_cons_self ..
            have hwithout : (without n members).Perm (names.zip vs ++ others) := by
              have h := hperm.filter (fun m => m.1 != n)
              rw [List.cons_append, List.filter_cons, if_neg (by simp),
                List.filter_eq_self.mpr (fun m hm => bne_iff_ne.mpr (hbehind m hm))] at h
              exact h
            refine ⟨v, vs, field?_eq_some.mpr ?_, ?_, rfl⟩
            · exact hperm.trans (hwithout.symm.cons _)
            · rw [← fields?_without hnames.1]
              refine (ih hnames.2).mpr ⟨hlen, others, hwithout, fun m hm hmem => ?_⟩
              exact hothers m hm (List.mem_cons_of_mem _ hmem)

/-- **RECORDS** are read from objects that hold the fields, and from arrays. -/
theorem record?_eq_some {names : List String} (hnames : names.Nodup) {values : List Json} :
    record? names j = some values ↔
      values.length = names.length ∧ IsRecord (names.zip values) j := by
  have hsnd : values.length = names.length → (names.zip values).map (·.2) = values :=
    fun h => List.map_snd_zip (Nat.le_of_eq h)
  cases j with
  | object members =>
      rw [record?, fields?_eq_some hnames]
      constructor
      · rintro ⟨hlen, h⟩
        exact ⟨hlen, .byName h⟩
      · rintro ⟨hlen, ⟨h⟩⟩
        exact ⟨hlen, h⟩
  | array elems =>
      rw [record?]
      constructor
      · intro h
        split at h
        · -- by position: the elements are the values themselves
          next hlen =>
            obtain rfl := Option.some.inj h
            refine ⟨hlen, ?_⟩
            have hrecord : IsRecord (names.zip elems) _ := .byPosition
            rwa [hsnd hlen] at hrecord
        · cases h
      · rintro ⟨hlen, h⟩
        generalize hfields : names.zip values = fields at h
        cases h with
        | byPosition =>
            rw [← hfields, hsnd hlen, if_pos hlen]
  | _ =>
      constructor
      · intro h
        cases h
      · rintro ⟨-, h⟩
        cases h

/-- A record of two fields. -/
theorem record?_pair {name name' : String} (hne : name ≠ name') {values : List Json} :
    record? [name, name'] j = some values ↔
      ∃ v v', values = [v, v'] ∧ IsRecord [(name, v), (name', v')] j := by
  rw [record?_eq_some (by simpa using hne)]
  constructor
  · rintro ⟨hlen, h⟩
    obtain ⟨v, v', rfl⟩ := List.length_eq_two.mp hlen
    exact ⟨v, v', rfl, h⟩
  · rintro ⟨v, v', rfl, h⟩
    exact ⟨rfl, h⟩

end Json

end ProgLib
