import ProfilerGetSymbols.ReadUleb128

/-! # Function starts — the deltas of `LC_FUNCTION_STARTS`

    The load command lists the functions of an image by the distances between their
    addresses, in ULEB128.  Any encoding of at most ten bytes is read back, so a list
    of addresses comes back as it was.

    The distances are summed as `u64` and handed out as `u32`, neither of which is
    checked: what is handed out is the sum as long as the sum of all distances is an
    address of 32 bits. -/

namespace ProfilerGetSymbols.MachO

open ProgLib

/-! ## Encoded lists -/

/-- The addresses are encoded by their distances, the first one from `prev` on. -/
inductive EncodesStarts : Nat → List Nat → Bytes → Prop
  | nil (prev : Nat) : EncodesStarts prev [] []
  | cons {prev address : Nat} {addresses : List Nat} {delta bytes : Bytes}
      (h : Uleb128 delta (address - prev)) (hlen : delta.length ≤ 10)
      (rest : EncodesStarts address addresses bytes) :
      EncodesStarts prev (address :: addresses) (delta ++ bytes)

/-- Where a list ends: at the end of the data, or at a zero byte. -/
def IsEnd (tail : Bytes) : Prop := tail = [] ∨ ∃ junk, tail = 0 :: junk

theorem functionStartsFrom_end {tail : Bytes} (h : IsEnd tail) (fuel prev : Nat) :
    functionStartsFrom fuel prev tail = [] := by
  cases fuel with
  | zero => rfl
  | succ fuel =>
      rcases h with rfl | ⟨junk, rfl⟩
      · rfl
      · rw [functionStartsFrom, readUleb128_zero]
        exact if_pos rfl

/-- **DECODING UNDOES ENCODING**, from any address on. -/
theorem functionStartsFrom_encoded {prev : Nat} {addresses : List Nat} {bytes tail : Bytes}
    (h : EncodesStarts prev addresses bytes) (htail : IsEnd tail)
    (hsorted : (prev :: addresses).Pairwise (· < ·)) (haddresses : ∀ a ∈ addresses, a < 2 ^ 32)
    {fuel : Nat} (hfuel : (bytes ++ tail).length ≤ fuel) :
    functionStartsFrom fuel prev (bytes ++ tail) = addresses := by
  induction h generalizing fuel with
  | nil prev => exact functionStartsFrom_end htail fuel prev
  | @cons prev address addresses delta bytes h hlen hrest ih =>
      rw [List.forall_mem_cons] at haddresses
      rw [List.pairwise_cons] at hsorted
      have hlt := hsorted.1 address (List.mem_cons_self ..)
      have hpos := List.length_pos_iff.mpr h.ne_nil
      cases fuel with
      | zero =>
          rw [List.length_append, List.length_append] at hfuel
          omega
      | succ fuel =>
          -- the distance is not zero, and the sum is the next address
          have hfuel' : (bytes ++ tail).length ≤ fuel := by
            simp only [List.length_append] at hfuel ⊢
            omega
          have hsum : u64Add prev (address - prev) = address := by
            rw [u64Add_of_lt (by omega)]
            omega
          rw [List.append_assoc, functionStartsFrom,
            readUleb128_append h hlen (by omega) (bytes ++ tail)]
          simp only [if_neg (show address - prev ≠ 0 by omega), hsum, asU32_of_lt haddresses.1]
          rw [ih hsorted.2 haddresses.2 hfuel']

/-- The answer of `get_function_starts` for the content of the load command. -/
theorem getFunctionStarts_of_data [Crates] {d : MachOData} {bytes : Bytes}
    (h : d.functionStartData = .ok (some bytes)) :
    d.getFunctionStarts = .ok (some (functionStartsFrom bytes.length 0 bytes)) := by
  rw [MachOData.getFunctionStarts, h]
  rfl

/-- **FUNCTION STARTS** are read back from any encoding of a strictly increasing list
    of addresses above zero. -/
theorem getFunctionStarts_encoded [Crates] (d : MachOData) (addresses : List Nat)
    (hsorted : addresses.Pairwise (· < ·)) (hfirst : ∀ a ∈ addresses.head?, 0 < a)
    (haddresses : ∀ a ∈ addresses, a < 2 ^ 32) (bytes tail : Bytes)
    (hbytes : EncodesStarts 0 addresses bytes) (htail : IsEnd tail)
    (hdata : d.functionStartData = .ok (some (bytes ++ tail))) :
    d.getFunctionStarts = .ok (some addresses) := by
  have hpositive : (0 :: addresses).Pairwise (· < ·) := by
    cases addresses with
    | nil => exact List.pairwise_singleton ..
    | cons first addresses =>
        have hpos := hfirst first rfl
        refine List.pairwise_cons.mpr ⟨?_, hsorted⟩
        intro a ha
        rcases List.mem_cons.mp ha with rfl | hmem
        · exact hpos
        · exact Nat.lt_trans hpos ((List.pairwise_cons.mp hsorted).1 a hmem)
  rw [getFunctionStarts_of_data hdata,
    functionStartsFrom_encoded hbytes htail hpositive haddresses (Nat.le_refl _)]

/-- An image whose only load command lists the functions. -/
abbrev functionStartsCrates : Crates :=
  { Crates.nothing with loadCommands := fun _ _ _ => .ok [⟨lcFunctionStarts, .ok (0, 0)⟩] }

/-- The image with the content of the load command. -/
def imageOf (bytes : Bytes) : MachOData :=
  ⟨⟨⟨bytes.length, fun _ _ => .ok bytes, fun _ _ => .ok bytes⟩, 0, bytes.length⟩, 0, true⟩

/-- Functions at 4096 and 4224; the second distance is written in three bytes instead
    of two, and bytes follow the zero. -/
theorem getFunctionStarts_encoded_two :
    let _ : Crates := functionStartsCrates
    (imageOf [0x80, 0x20, 0x80, 0x81, 0x00, 0x00, 0xff]).getFunctionStarts
      = .ok (some [4096, 4224]) := by
  intro crates
  refine getFunctionStarts_encoded _ [4096, 4224] (by decide) (by decide) (by decide)
    [0x80, 0x20, 0x80, 0x81, 0x00] [0x00, 0xff] ?_ (Or.inr ⟨[0xff], rfl⟩) rfl
  have hfirst : Uleb128 [0x80, 0x20] (4096 - 0) := .more (by decide) (.last (by decide))
  have hsecond : Uleb128 [0x80, 0x81, 0x00] (4224 - 4096) :=
    .more (by decide) (.more (by decide) (.last (by decide)))
  exact .cons hfirst (by decide) (.cons hsecond (by decide) (.nil 4224))

/-! ## Sums of deltas -/

/-- The deltas that are read, up to the first one that is zero or cannot be read. -/
def deltasFrom : Nat → Bytes → List Nat
  | 0, _ => []
  | fuel + 1, bytes =>
      match readUleb128 bytes with
      | none => []
      | some (delta, rest) => if delta = 0 then [] else delta :: deltasFrom fuel rest

def deltas (bytes : Bytes) : List Nat := deltasFrom bytes.length bytes

/-- The exact sums up to each delta. -/
def sumsFrom : Nat → List Nat → List Nat
  | _, [] => []
  | prev, delta :: deltas => (prev + delta) :: sumsFrom (prev + delta) deltas

/-- The sums are computed without overflow, and those that are addresses of 32 bits
    are handed out, and nothing else. -/
structure ExactStarts (bytes : Bytes) (starts : List Nat) : Prop where
  noOverflow : ∀ sum ∈ sumsFrom 0 (deltas bytes), sum < 2 ^ 64
  exact : starts = (sumsFrom 0 (deltas bytes)).filter (· < 2 ^ 32)

theorem deltasFrom_fuel {n m : Nat} {bytes : Bytes} (hn : bytes.length ≤ n)
    (hm : bytes.length ≤ m) : deltasFrom n bytes = deltasFrom m bytes := by
  induction n generalizing m bytes with
  | zero =>
      obtain rfl := List.eq_nil_of_length_eq_zero (Nat.le_zero.mp hn)
      cases m <;> rfl
  | succ n ih =>
      cases m with
      | zero =>
          obtain rfl := List.eq_nil_of_length_eq_zero (Nat.le_zero.mp hm)
          rfl
      | succ m =>
          rw [deltasFrom, deltasFrom]
          cases hread : readUleb128 bytes with
          | none => rfl
          | some read =>
              have hlt := length_readUleb128 hread
              show (if read.1 = 0 then [] else read.1 :: deltasFrom n read.2)
                = if read.1 = 0 then [] else read.1 :: deltasFrom m read.2
              have hrest : deltasFrom n read.2 = deltasFrom m read.2 := ih (by omega) (by omega)
              rw [hrest]

/-- **DELTAS** are read one after the other; the fuel never runs out. -/
theorem deltas_eq (bytes : Bytes) :
    deltas bytes = (readUleb128 bytes).elim []
      (fun read => if read.1 = 0 then [] else read.1 :: deltas read.2) := by
  have hfuel : deltas bytes = deltasFrom (bytes.length + 1) bytes :=
    deltasFrom_fuel (Nat.le_refl _) (Nat.le_succ _)
  rw [hfuel, deltasFrom]
  cases hread : readUleb128 bytes with
  | none => rfl
  | some read =>
      have hlt := length_readUleb128 hread
      show (if read.1 = 0 then [] else read.1 :: deltasFrom bytes.length read.2)
        = if read.1 = 0 then [] else read.1 :: deltas read.2
      rw [deltas, deltasFrom_fuel (Nat.le_refl read.2.length) (Nat.le_of_lt hlt)]

/-- What is handed out are the exact sums, cut to 32 bits. -/
theorem functionStartsFrom_eq (fuel prev : Nat) (bytes : Bytes) :
    functionStartsFrom fuel (prev % 2 ^ 64) bytes
      = (sumsFrom prev (deltasFrom fuel bytes)).map asU32 := by
  induction fuel generalizing prev bytes with
  | zero => rfl
  | succ fuel ih =>
      rw [functionStartsFrom, deltasFrom]
      cases readUleb128 bytes with
      | none => rfl
      | some read =>
          obtain ⟨delta, rest⟩ := read
          by_cases hdelta : delta = 0
          · simp only [if_pos hdelta]
            rfl
          · have hsum : u64Add (prev % 2 ^ 64) delta = (prev + delta) % 2 ^ 64 :=
              Nat.mod_add_mod prev _ delta
            have hcut : asU32 ((prev + delta) % 2 ^ 64) = asU32 (prev + delta) :=
              Nat.mod_mod_of_dvd _ (by decide)
            simp only [if_neg hdelta, hsum, ih (prev + delta) rest, hcut]
            rfl

theorem le_sum_of_mem_sumsFrom {prev sum : Nat} {deltas : List Nat}
    (h : sum ∈ sumsFrom prev deltas) : sum ≤ prev + deltas.sum := by
  induction deltas generalizing prev with
  | nil => cases h
  | cons delta deltas ih =>
      rw [List.sum_cons]
      rcases List.mem_cons.mp h with rfl | hmem
      · omega
      · have hle := ih hmem
        omega

/-- The last sum is that of all deltas. -/
theorem sum_mem_sumsFrom {prev : Nat} {deltas : List Nat} (h : deltas ≠ []) :
    prev + deltas.sum ∈ sumsFrom prev deltas := by
  induction deltas generalizing prev with
  | nil => exact absurd rfl h
  | cons delta deltas ih =>
      cases deltas with
      | nil => simp [sumsFrom]
      | cons delta' deltas =>
          rw [List.sum_cons, ← Nat.add_assoc]
          exact List.mem_cons_of_mem _ (ih (List.cons_ne_nil _ _))

/-- **MALFORMED FUNCTION STARTS** come out exact if and only if the sum of all deltas
    is an address of 32 bits. -/
theorem getFunctionStarts_exact_iff [Crates] (d : MachOData) (bytes : Bytes)
    (hdata : d.functionStartData = .ok (some bytes)) :
    (∃ starts, d.getFunctionStarts = .ok (some starts) ∧ ExactStarts bytes starts) ↔
      (deltas bytes).sum < 2 ^ 32 := by
  have hstarts : functionStartsFrom bytes.length 0 bytes = (sumsFrom 0 (deltas bytes)).map asU32 :=
    functionStartsFrom_eq bytes.length 0 bytes
  rw [getFunctionStarts_of_data hdata, hstarts]
  constructor
  · rintro ⟨starts, hanswer, hexact⟩
    have heq : (sumsFrom 0 (deltas bytes)).map asU32
        = (sumsFrom 0 (deltas bytes)).filter (· < 2 ^ 32) :=
      (Option.some.inj (Outcome.ok.inj hanswer)).trans hexact.exact
    -- as many are handed out as there are sums, so none was filtered out
    have hall : ∀ sum ∈ sumsFrom 0 (deltas bytes), sum < 2 ^ 32 := by
      have hlen := congrArg List.length heq
      rw [List.length_map, eq_comm, List.length_filter_eq_length_iff] at hlen
      intro sum hsum
      exact of_decide_eq_true (hlen sum hsum)
    cases hdeltas : deltas bytes with
    | nil => decide
    | cons delta rest =>
        have hne : deltas bytes ≠ [] := hdeltas ▸ List.cons_ne_nil delta rest
        have hlast := hall _ (sum_mem_sumsFrom hne)
        rwa [Nat.zero_add, hdeltas] at hlast
  · intro hsum
    have hall : ∀ sum ∈ sumsFrom 0 (deltas bytes), sum < 2 ^ 32 := by
      intro sum hmem
      have hle := le_sum_of_mem_sumsFrom hmem
      omega
    refine ⟨_, rfl, fun sum hmem => Nat.lt_trans (hall sum hmem) (by decide), ?_⟩
    rw [List.filter_eq_self.mpr (fun sum hmem => decide_eq_true (hall sum hmem))]
    have hid : (sumsFrom 0 (deltas bytes)).map asU32 = (sumsFrom 0 (deltas bytes)).map id :=
      List.map_congr_left (fun sum hmem => asU32_of_lt (hall sum hmem))
    rw [hid, List.map_id]

/-- Two functions, 128 apart. -/
theorem getFunctionStarts_exact_two :
    let _ : Crates := functionStartsCrates
    ∃ starts, (imageOf [0x80, 0x20, 0x80, 0x01]).getFunctionStarts = .ok (some starts) ∧
      ExactStarts [0x80, 0x20, 0x80, 0x01] starts := by
  intro crates
  exact (getFunctionStarts_exact_iff (imageOf [0x80, 0x20, 0x80, 0x01]) _ rfl).mpr (by decide)

/-- A distance of one from the last address of 32 bits: the sum comes out as zero. -/
theorem not_getFunctionStarts_exact :
    let _ : Crates := functionStartsCrates
    let bytes : Bytes := [0xff, 0xff, 0xff, 0xff, 0x0f, 0x01]
    (imageOf bytes).getFunctionStarts = .ok (some [0xffffffff, 0]) ∧
      ¬ ExactStarts bytes [0xffffffff, 0] := by
  intro crates bytes
  refine ⟨rfl, fun h => ?_⟩
  exact absurd h.exact (by decide)

end ProfilerGetSymbols.MachO
