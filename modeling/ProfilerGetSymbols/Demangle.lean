import ProfilerGetSymbols.Crates

/-! # Demangling

    A symbol name is demangled by the first language that claims it.  The
    demanglers of other crates are functions of the name; the OCaml one is the
    program's own, with a slice `&rest[..2]` that need not end on a character
    boundary. -/

namespace ProfilerGetSymbols.Demangle

open ProgLib

variable {ε : Type}

/-- The value of a hexadecimal digit. -/
def hexDigit (c : Char) : Option Nat :=
  if '0' ≤ c ∧ c ≤ '9' then some (c.toNat - '0'.toNat)
  else if 'a' ≤ c ∧ c ≤ 'f' then some (c.toNat - 'a'.toNat + 10)
  else if 'A' ≤ c ∧ c ≤ 'F' then some (c.toNat - 'A'.toNat + 10)
  else none

/-- `u8::from_str_radix(s, 16).ok()` on two one-byte characters; a leading `+` is
    a sign. -/
def u8FromHex (c₁ c₂ : Char) : Option Nat := do
  let low ← hexDigit c₂
  if c₁ = '+' then return low
  else
    let high ← hexDigit c₁
    return 16 * high + low

/-- The loop over the characters after the prefix. -/
def decodeOcaml : List Char → Call ε (List Char)
  | [] => return []
  | '_' :: '_' :: rest => do return '.' :: (← decodeOcaml rest)
  | '$' :: c₁ :: c₂ :: rest =>
      if c₁.utf8Size = 1 ∧ c₂.utf8Size = 1 then
        match u8FromHex c₁ c₂ with
        | some n => do return Char.ofNat n :: (← decodeOcaml rest)
        | none => decodeOcaml (c₁ :: c₂ :: rest)
      else if c₁.utf8Size = 2 then decodeOcaml (c₁ :: c₂ :: rest)
      else .panic .charBoundary
  | ['$', c] =>
      -- `rest.len() >= 2` counts bytes.
      if c.utf8Size = 1 then return ['$', c]
      else if c.utf8Size = 2 then return [c]
      else .panic .charBoundary
  | c :: rest => do return c :: (← decodeOcaml rest)

variable [Crates]

/-- `demangle_ocaml::demangle`. -/
def demangleOcaml (name : String) : Call ε (Option String) := do
  match name.toList with
  | 'c' :: 'a' :: 'm' :: 'l' :: rest =>
      match rest.head? with
      | some c =>
          if Crates.isUppercase c then return some (String.ofList (← decodeOcaml rest))
          else return none
      | none => return some ""
  | _ => return none

def demangleAny (name : String) : Call ε String := do
  if name.toList.head? = some '?' then
    return (Crates.msvcDemangle name).getD name
  else
  match Crates.rustcDemangle name with
  | some demangled => return demangled
  | none =>
  match Crates.cppDemangle name with
  | some demangled => return demangled
  | none =>
  match ← demangleOcaml name with
  | some demangled => return demangled
  | none =>
  match name.toList with
  | '_' :: rest => return String.ofList rest
  | _ => return name

/-! ## Where demangling can panic -/

omit [Crates] in
theorem settles_decodeOcaml {admitted : Panic → Prop} (h : admitted .charBoundary)
    (chars : List Char) : (decodeOcaml chars : Call ε _).Settles admitted := by
  fun_induction decodeOcaml chars with
  | case1 => exact trivial
  | case2 rest ih => exact ih.bind (fun _ _ => trivial)
  | case3 c₁ c₂ rest _ n _ ih => exact ih.bind (fun _ _ => trivial)
  | case4 c₁ c₂ rest _ _ ih => exact ih
  | case5 c₁ c₂ rest _ _ ih => exact ih
  | case6 => exact h
  | case7 => exact trivial
  | case8 => exact trivial
  | case9 => exact h
  | case10 c rest _ _ _ ih => exact ih.bind (fun _ _ => trivial)

/-- The only panic is the slice off a character boundary. -/
theorem settles_demangleAny {admitted : Panic → Prop} (h : admitted .charBoundary)
    (name : String) : (demangleAny name : Call ε _).Settles admitted := by
  have hocaml : (demangleOcaml name : Call ε _).Settles admitted := by
    rw [demangleOcaml]
    split
    · split
      · split
        · exact (settles_decodeOcaml h _).bind (fun _ _ => trivial)
        · exact trivial
      · exact trivial
    · exact trivial
  rw [demangleAny]
  split
  · exact trivial
  · split
    · exact trivial
    · split
      · exact trivial
      · refine hocaml.bind ?_
        intro demangled _
        split
        · exact trivial
        · split
          · exact trivial
          · exact trivial

end ProfilerGetSymbols.Demangle
