import ProfilerGetSymbols.MachO
import ProfilerGetSymbols.ProgLib.Chain
import ProfilerGetSymbols.ProgLib.Uleb128

/-! # Reading ULEB128 — one number from the front of a slice

    `read_uleb128` adds up the groups of a number at shifts 0, 7, … and checks only
    one byte, the one at shift 63: it must be 0 or 1.  Either has no continuation
    bit, so there is no round after it, and its group fits into the one bit that is
    left.  All groups before it fit into the 63 bits below.

    So the numbers that are read are those whose encoding is terminated, takes ten
    bytes at most and is a `u64`. -/

namespace ProfilerGetSymbols.MachO

open ProgLib

/-! ## One byte -/

/-- The byte is refused at this shift. -/
abbrev Refused (shift : Nat) (byte : UInt8) : Prop := shift = 63 ∧ byte ≠ 0 ∧ byte ≠ 1

/-- `result |= low_bits << shift` -/
abbrev withGroup (result shift : Nat) (byte : UInt8) : Nat :=
  result ||| ((byte &&& 0x7f).toNat <<< shift) % 2 ^ 64

/-- At the tenth byte the refused ones are all but 0 and 1. -/
theorem eq_zero_or_one_of_not_refused {byte : UInt8} (h : ¬ Refused (7 * 9) byte) :
    byte = 0 ∨ byte = 1 := by
  by_cases hzero : byte = 0
  · exact Or.inl hzero
  · by_cases hone : byte = 1
    · exact Or.inr hone
    · exact absurd ⟨rfl, hzero, hone⟩ h

theorem pow_next (i : Nat) : 2 ^ (7 * (i + 1)) = 128 * 2 ^ (7 * i) := by
  rw [Nat.mul_add, Nat.pow_add, Nat.mul_comm]

/-- The lower groups with the next one. -/
theorem add_group_lt_next {result i : Nat} (byte : UInt8) (hresult : result < 2 ^ (7 * i)) :
    result + byte.toNat % 128 * 2 ^ (7 * i) < 2 ^ (7 * (i + 1)) := by
  have hgroup : byte.toNat % 128 * 2 ^ (7 * i) ≤ 127 * 2 ^ (7 * i) :=
    Nat.mul_le_mul_right _ (by omega)
  rw [pow_next]
  omega

/-- **NO OVERFLOW**: the group of a byte that is not refused fits on top of the lower
    groups, in 64 bits. -/
theorem add_group_lt {result i : Nat} {byte : UInt8} (hi : i ≤ 9) (hresult : result < 2 ^ (7 * i))
    (haccepted : ¬ Refused (7 * i) byte) :
    result + byte.toNat % 128 * 2 ^ (7 * i) < 2 ^ 64 := by
  rcases Nat.lt_or_eq_of_le hi with hlt | rfl
  · have hpow : 2 ^ (7 * (i + 1)) ≤ 2 ^ 64 := Nat.pow_le_pow_right (by decide) (by omega)
    exact Nat.lt_of_lt_of_le (add_group_lt_next byte hresult) hpow
  · -- 63 bits are taken, and the group is 0 or 1
    have hsmall : byte.toNat % 128 ≤ 1 := by
      rcases eq_zero_or_one_of_not_refused haccepted with rfl | rfl
      · decide
      · decide
    omega

/-- A byte with the continuation bit is not the tenth. -/
theorem lt_nine_of_high {i : Nat} {byte : UInt8} (hi : i ≤ 9) (hhigh : 128 ≤ byte.toNat)
    (haccepted : ¬ Refused (7 * i) byte) : i < 9 := by
  refine Nat.lt_of_le_of_ne hi ?_
  rintro rfl
  rcases eq_zero_or_one_of_not_refused haccepted with rfl | rfl
  · exact absurd hhigh (by decide)
  · exact absurd hhigh (by decide)

/-- The lower groups with the next one and those above it. -/
theorem add_groups {result i v : Nat} {byte : UInt8} (hhigh : 128 ≤ byte.toNat) :
    result + byte.toNat % 128 * 2 ^ (7 * i) + v * 2 ^ (7 * (i + 1))
      = result + (byte.toNat - 128 + 128 * v) * 2 ^ (7 * i) := by
  have hlt := byte.toNat_lt
  have hmod : byte.toNat % 128 = byte.toNat - 128 := by omega
  rw [hmod, pow_next]
  ring

/-! ## One number -/

/-- No bit of a group is lost in the shift. -/
theorem group_shiftLeft_lt {i : Nat} {byte : UInt8} (hi : i ≤ 9)
    (haccepted : ¬ Refused (7 * i) byte) : (byte &&& 0x7f).toNat <<< (7 * i) < 2 ^ 64 := by
  have hfits := add_group_lt hi (Nat.two_pow_pos _) haccepted
  rw [Nat.zero_add] at hfits
  rw [Uleb128.toNat_and_low, Nat.shiftLeft_eq]
  exact hfits

/-- The groups have no bit in common, so they are summed. -/
theorem withGroup_eq {result i : Nat} {byte : UInt8} (hi : i ≤ 9) (hresult : result < 2 ^ (7 * i))
    (haccepted : ¬ Refused (7 * i) byte) :
    withGroup result (7 * i) byte = result + byte.toNat % 128 * 2 ^ (7 * i) := by
  rw [withGroup, Nat.mod_eq_of_lt (group_shiftLeft_lt hi haccepted),
    Uleb128.or_shiftLeft _ hresult, Uleb128.toNat_and_low]

/-- A round of the loop of `read_uleb128`. -/
theorem readUleb128From_cons {result i : Nat} {byte : UInt8} {bytes : Bytes} (hi : i ≤ 9)
    (hresult : result < 2 ^ (7 * i)) (haccepted : ¬ Refused (7 * i) byte) :
    readUleb128From result (7 * i) (byte :: bytes)
      = if byte.toNat < 128 then some (result + byte.toNat % 128 * 2 ^ (7 * i), bytes)
        else readUleb128From (result + byte.toNat % 128 * 2 ^ (7 * i)) (7 * (i + 1)) bytes := by
  rw [readUleb128From, if_neg haccepted]
  show (if byte &&& 0x80 = 0 then some (withGroup result (7 * i) byte, bytes)
    else readUleb128From (withGroup result (7 * i) byte) (7 * (i + 1)) bytes) = _
  simp only [withGroup_eq hi hresult haccepted, Uleb128.and_high_eq_zero_iff]

/-- **ONE NUMBER** is read back from any encoding of at most ten bytes. -/
theorem readUleb128From_append {bytes : Bytes} {v : Nat} (h : Uleb128 bytes v) (rest : Bytes)
    {result i : Nat} (hi : i + bytes.length ≤ 10) (hresult : result < 2 ^ (7 * i))
    (hfits : result + v * 2 ^ (7 * i) < 2 ^ 64) :
    readUleb128From result (7 * i) (bytes ++ rest) = some (result + v * 2 ^ (7 * i), rest) := by
  induction h generalizing result i with
  | @last b h =>
      have hmod : b.toNat % 128 = b.toNat := Nat.mod_eq_of_lt h
      have hnine : i ≤ 9 := Nat.le_of_succ_le_succ hi
      have haccepted : ¬ Refused (7 * i) b := by
        rintro ⟨hshift, hzero, hone⟩
        obtain rfl : i = 9 := by omega
        have hsmall : b.toNat = 0 ∨ b.toNat = 1 := by omega
        rcases hsmall with hb | hb
        · exact hzero (UInt8.toNat_inj.mp hb)
        · exact hone (UInt8.toNat_inj.mp hb)
      rw [List.singleton_append, readUleb128From_cons hnine hresult haccepted, if_pos h, hmod]
  | @more b bytes v h hrest ih =>
      have hlen : 0 < bytes.length := List.length_pos_iff.mpr hrest.ne_nil
      rw [List.length_cons] at hi
      have haccepted : ¬ Refused (7 * i) b := by
        rintro ⟨hshift, -⟩
        omega
      rw [← add_groups h] at hfits ⊢
      rw [List.cons_append, readUleb128From_cons (by omega) hresult haccepted,
        if_neg (Nat.not_lt.mpr h), ih (by omega) (add_group_lt_next b hresult) hfits]

/-- **NOTHING ELSE** is read: what is, was encoded at the front in at most ten bytes. -/
theorem encoded_of_readUleb128From {bytes rest : Bytes} {result i v : Nat} (hi : i ≤ 9)
    (hresult : result < 2 ^ (7 * i))
    (h : readUleb128From result (7 * i) bytes = some (v, rest)) :
    ∃ number w, bytes = number ++ rest ∧ Uleb128 number w ∧ i + number.length ≤ 10 ∧
      v = result + w * 2 ^ (7 * i) ∧ v < 2 ^ 64 := by
  induction bytes generalizing result i with
  | nil => cases h
  | cons byte bytes ih =>
      by_cases hrefused : Refused (7 * i) byte
      · rw [readUleb128From, if_pos hrefused] at h
        cases h
      · rw [readUleb128From_cons hi hresult hrefused] at h
        by_cases hlast : byte.toNat < 128
        · rw [if_pos hlast] at h
          obtain ⟨hv, rfl⟩ := Prod.mk.inj (Option.some.inj h)
          have hfits := add_group_lt hi hresult hrefused
          rw [Nat.mod_eq_of_lt hlast] at hv hfits
          exact ⟨[byte], byte.toNat, rfl, .last hlast, Nat.succ_le_succ hi, hv.symm, hv ▸ hfits⟩
        · -- the continuation bit is set, so there is a byte left for the others
          rw [if_neg hlast] at h
          have hhigh := Nat.le_of_not_lt hlast
          obtain ⟨number, w, rfl, hnumber, hlen, hv, hfits⟩ :=
            ih (lt_nine_of_high hi hhigh hrefused) (add_group_lt_next byte hresult) h
          refine ⟨byte :: number, byte.toNat - 128 + 128 * w, rfl, .more hhigh hnumber, ?_, ?_, hfits⟩
          · rw [List.length_cons]
            omega
          · rw [hv, add_groups hhigh]

/-- An encoding of a `u64` in at most ten bytes, whatever follows it. -/
theorem readUleb128_append {bytes : Bytes} {v : Nat} (h : Uleb128 bytes v)
    (hlen : bytes.length ≤ 10) (hv : v < 2 ^ 64) (rest : Bytes) :
    readUleb128 (bytes ++ rest) = some (v, rest) := by
  have hread : readUleb128From 0 (7 * 0) (bytes ++ rest) = some (0 + v * 2 ^ (7 * 0), rest) :=
    readUleb128From_append h rest (by omega) (by decide) (by omega)
  rw [Nat.mul_zero, Nat.pow_zero, Nat.mul_one, Nat.zero_add] at hread
  exact hread

/-- A zero byte is the number zero. -/
theorem readUleb128_zero (rest : Bytes) : readUleb128 (0 :: rest) = some (0, rest) := rfl

/-- What is read is a `u64` in an encoding of at most ten bytes. -/
theorem encoded_of_readUleb128 {bytes rest : Bytes} {v : Nat}
    (h : readUleb128 bytes = some (v, rest)) :
    ∃ number, bytes = number ++ rest ∧ Uleb128 number v ∧ number.length ≤ 10 ∧ v < 2 ^ 64 := by
  have hread : readUleb128From 0 (7 * 0) bytes = some (v, rest) := h
  obtain ⟨number, w, hbytes, hnumber, hlen, hv, hfits⟩ :=
    encoded_of_readUleb128From (Nat.zero_le 9) (by decide) hread
  rw [Nat.mul_zero, Nat.pow_zero, Nat.mul_one, Nat.zero_add] at hv
  exact ⟨number, hbytes, hv ▸ hnumber, (Nat.zero_add number.length) ▸ hlen, hfits⟩

/-- A number that is read takes a byte or more. -/
theorem length_readUleb128 {bytes rest : Bytes} {v : Nat}
    (h : readUleb128 bytes = some (v, rest)) : rest.length < bytes.length := by
  obtain ⟨number, rfl, hnumber, -, -⟩ := encoded_of_readUleb128 h
  have hpos := List.length_pos_iff.mpr hnumber.ne_nil
  rw [List.length_append]
  omega

/-- The slice is `b₀ … b_k` with `rest` behind, `k` at most 9; the continuation bit is set
    in all of these but `b_k`, and their groups make up the `u64` `v`. -/
structure StartsWith (bytes : Bytes) (v : Nat) (rest : Bytes) (number : Bytes) : Prop where
  split : bytes = number ++ rest
  terminated : Uleb128.Terminated number
  length_le : number.length ≤ 10
  value : v = Uleb128.ofGroups number
  fits : Uleb128.ofGroups number < 2 ^ 64

/-- **EXACTLY THE ENCODINGS** of a `u64` are read. -/
theorem readUleb128_eq_some_iff {bytes rest : Bytes} {v : Nat} :
    readUleb128 bytes = some (v, rest) ↔ ∃ number, StartsWith bytes v rest number := by
  constructor
  · intro h
    obtain ⟨number, hbytes, hnumber, hlen, hfits⟩ := encoded_of_readUleb128 h
    obtain ⟨hterminated, rfl⟩ := Uleb128.iff_terminated.mp hnumber
    exact ⟨number, hbytes, hterminated, hlen, rfl, hfits⟩
  · rintro ⟨number, rfl, hterminated, hlen, rfl, hfits⟩
    exact readUleb128_append (Uleb128.of_terminated hterminated) hlen hfits rest

/-- Groups of zeros may fill up the ten bytes; `2 ^ 64` does not fit. -/
example : readUleb128 [0x81, 0x80, 0x80, 0x80, 0x80, 0x80, 0x80, 0x80, 0x80, 0x00, 0xff]
      = some (1, [0xff]) ∧
    readUleb128 [0x80, 0x80, 0x80, 0x80, 0x80, 0x80, 0x80, 0x80, 0x80, 0x02] = none := by
  decide

theorem readUleb128_eq_none {bytes : Bytes}
    (h : ¬ ∃ v rest number, StartsWith bytes v rest number) : readUleb128 bytes = none := by
  cases hread : readUleb128 bytes with
  | none => rfl
  | some read =>
      obtain ⟨v, rest⟩ := read
      exact absurd ⟨v, rest, readUleb128_eq_some_iff.mp hread⟩ h

/-! ## The rounds of the loop -/

/-- The variables of the loop of `read_uleb128`. -/
structure LoopState where
  result : Nat
  shift : Nat
  bytes : Bytes

namespace LoopState

/-- One round: what is returned, or the variables of the next round. -/
def round (s : LoopState) : Option (Nat × Bytes) ⊕ LoopState :=
  match s.bytes with
  | [] => .inl none
  | byte :: bytes =>
      if Refused s.shift byte then .inl none
      else if byte &&& 0x80 = 0 then .inl (some (withGroup s.result s.shift byte, bytes))
      else .inr ⟨withGroup s.result s.shift byte, s.shift + 7, bytes⟩

section Rounds

variable {result shift : Nat} {byte : UInt8} {bytes : Bytes}

theorem round_of_refused (h : Refused shift byte) :
    round ⟨result, shift, byte :: bytes⟩ = .inl none := if_pos h

theorem round_of_last (h : ¬ Refused shift byte) (hlast : byte &&& 0x80 = 0) :
    round ⟨result, shift, byte :: bytes⟩ = .inl (some (withGroup result shift byte, bytes)) :=
  (if_neg h).trans (if_pos hlast)

theorem round_of_more (h : ¬ Refused shift byte) (hmore : byte &&& 0x80 ≠ 0) :
    round ⟨result, shift, byte :: bytes⟩
      = .inr ⟨withGroup result shift byte, shift + 7, bytes⟩ :=
  (if_neg h).trans (if_neg hmore)

end Rounds

/-- The variables of the next round, if there is one. -/
def next (s : LoopState) : Option LoopState := s.round.getRight?

/-- The variables before the first round. -/
def start (bytes : Bytes) : LoopState := ⟨0, 0, bytes⟩

/-- The low bits that are shifted in this round. -/
def Shifts (s : LoopState) (lowBits : Nat) : Prop :=
  ∃ byte bytes, s.bytes = byte :: bytes ∧ ¬ Refused s.shift byte ∧ lowBits = (byte &&& 0x7f).toNat

/-- What the loop returns from here on. -/
def read (s : LoopState) : Option (Nat × Bytes) := readUleb128From s.result s.shift s.bytes

theorem read_eq (s : LoopState) : s.read = s.round.elim id read := by
  obtain ⟨result, shift, bytes⟩ := s
  cases bytes with
  | nil => rfl
  | cons byte bytes =>
      rw [read, readUleb128From]
      by_cases hrefused : Refused shift byte
      · rw [round_of_refused hrefused, if_pos hrefused]
        rfl
      · rw [if_neg hrefused]
        by_cases hlast : byte &&& 0x80 = 0
        · rw [round_of_last hrefused hlast]
          exact if_pos hlast
        · rw [round_of_more hrefused hlast]
          exact if_neg hlast

/-- A round with one after it took a byte with the continuation bit. -/
theorem next_cases {s s' : LoopState} (h : s.next = some s') :
    ∃ byte bytes, s.bytes = byte :: bytes ∧ ¬ Refused s.shift byte ∧ byte &&& 0x80 ≠ 0 ∧
      s' = ⟨withGroup s.result s.shift byte, s.shift + 7, bytes⟩ := by
  obtain ⟨result, shift, bytes⟩ := s
  rw [next] at h
  cases bytes with
  | nil => cases h
  | cons byte bytes =>
      by_cases hrefused : Refused shift byte
      · rw [round_of_refused hrefused] at h
        cases h
      · by_cases hlast : byte &&& 0x80 = 0
        · rw [round_of_last hrefused hlast] at h
          cases h
        · rw [round_of_more hrefused hlast] at h
          exact ⟨byte, bytes, rfl, hrefused, hlast, (Option.some.inj h).symm⟩

theorem read_of_next {s s' : LoopState} (h : s.next = some s') : s'.read = s.read := by
  rw [read_eq s, Sum.getRight?_eq_some_iff.mp h]
  rfl

/-- The groups so far are those below the shift, which is a multiple of seven up to 63. -/
def Invariant (s : LoopState) : Prop := ∃ i ≤ 9, s.shift = 7 * i ∧ s.result < 2 ^ (7 * i)

theorem Invariant.next {s s' : LoopState} (h : s.Invariant) (hnext : s.next = some s') :
    s'.Invariant := by
  obtain ⟨i, hi, hshift, hresult⟩ := h
  obtain ⟨byte, bytes, -, haccepted, hhigh, rfl⟩ := next_cases hnext
  rw [hshift] at haccepted
  have hbyte : 128 ≤ byte.toNat := by
    rw [ne_eq, Uleb128.and_high_eq_zero_iff] at hhigh
    omega
  refine ⟨i + 1, lt_nine_of_high hi hbyte haccepted, ?_, ?_⟩
  · show s.shift + 7 = 7 * (i + 1)
    omega
  · calc withGroup s.result s.shift byte
        = s.result + byte.toNat % 128 * 2 ^ (7 * i) := by
          rw [hshift]
          exact withGroup_eq hi hresult haccepted
      _ < 2 ^ (7 * (i + 1)) := add_group_lt_next byte hresult

theorem Invariant.of_leads {bytes : Bytes} {s : LoopState}
    (h : Chain.Leads LoopState.next (start bytes) s) : s.Invariant :=
  h.invariant ⟨0, Nat.zero_le 9, rfl, Nat.one_pos⟩ (fun _ _ hs hnext => hs.next hnext)

/-- Every round takes a byte. -/
theorem length_next {s s' : LoopState} (h : s.next = some s') :
    s'.bytes.length < s.bytes.length := by
  obtain ⟨byte, bytes, hbytes, -, -, rfl⟩ := next_cases h
  rw [hbytes]
  exact Nat.lt_succ_self _

/-- **THE LOOP ENDS**, and returns what `read_uleb128` does. -/
theorem exists_returned (bytes : Bytes) :
    ∃ s, Chain.Leads LoopState.next (start bytes) s ∧ s.round = .inl (readUleb128 bytes) := by
  have hends : Chain.Ends LoopState.next (start bytes) :=
    Chain.ends_of_measure (fun _ _ hnext => length_next hnext) (start bytes)
  obtain ⟨s, hleads, hlast⟩ := hends.exists_last
  refine ⟨s, hleads, ?_⟩
  -- every round leaves what is returned as it is
  have hread : s.read = readUleb128 bytes :=
    hleads.invariant (I := fun t => t.read = readUleb128 bytes) rfl
      (fun _ _ hs hnext => (read_of_next hnext).trans hs)
  cases hround : s.round with
  | inl returned =>
      rw [read_eq, hround] at hread
      exact congrArg Sum.inl hread
  | inr s' =>
      rw [LoopState.next, hround] at hlast
      cases hlast

end LoopState

/-- **READING ULEB128** accepts exactly the terminated encodings of a `u64`; no round shifts
    by 64 or more, or shifts a bit out, and the loop ends. -/
theorem readUleb128_exact (bytes : Bytes) :
    (∀ v rest, readUleb128 bytes = some (v, rest) ↔
      ∃ number, StartsWith bytes v rest number) ∧
    ((¬ ∃ v rest number, StartsWith bytes v rest number) → readUleb128 bytes = none) ∧
    (∃ s, Chain.Leads LoopState.next (.start bytes) s ∧ s.round = .inl (readUleb128 bytes)) ∧
    ∀ s, Chain.Leads LoopState.next (.start bytes) s →
      s.shift < 64 ∧ ∀ lowBits, s.Shifts lowBits → lowBits <<< s.shift < 2 ^ 64 := by
  refine ⟨fun v rest => readUleb128_eq_some_iff, readUleb128_eq_none,
    LoopState.exists_returned bytes, ?_⟩
  intro s hs
  obtain ⟨i, hi, hshift, -⟩ := LoopState.Invariant.of_leads hs
  refine ⟨by omega, ?_⟩
  rintro lowBits ⟨byte, rest, -, haccepted, rfl⟩
  rw [hshift] at haccepted ⊢
  exact group_shiftLeft_lt hi haccepted

end ProfilerGetSymbols.MachO
