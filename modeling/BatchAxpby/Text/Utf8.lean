/-! # UTF-8 with gaps

Bytes that need not be UTF-8 are shown as text: each longest start of a character that does
not go on as one becomes the replacement character.
-/

namespace BatchAxpby.Utf8

def replacement : Char := '�'

/-- Bytes of a character that starts with this byte; zero if none does. -/
def width (lead : UInt8) : Nat :=
  if lead < 0x80 then 1
  else if lead < 0xc2 then 0
  else if lead < 0xe0 then 2
  else if lead < 0xf0 then 3
  else if lead < 0xf5 then 4
  else 0

def continues (b : UInt8) : Bool := 0x80 ≤ b && b < 0xc0

/-- Whether a byte can be the second one. Overlong forms, surrogates and codes beyond the last
character are left out. -/
def follows (lead second : UInt8) : Bool :=
  if lead = 0xe0 then 0xa0 ≤ second && second < 0xc0
  else if lead = 0xed then 0x80 ≤ second && second < 0xa0
  else if lead = 0xf0 then 0x90 ≤ second && second < 0xc0
  else if lead = 0xf4 then 0x80 ≤ second && second < 0x90
  else continues second

def assemble (lead : UInt8) (rest : List UInt8) : Char :=
  let bits := match rest.length with
    | 0 => lead.toNat
    | 1 => lead.toNat % 32
    | 2 => lead.toNat % 16
    | _ => lead.toNat % 8
  Char.ofNat (rest.foldl (fun code b => code * 64 + b.toNat % 64) bits)

/-- How many of the bytes after the lead belong to the start of a character. -/
def reach (lead : UInt8) (rest : List UInt8) : Nat :=
  match rest with
  | [] => 0
  | second :: more =>
    if 2 ≤ width lead ∧ follows lead second then
      1 + ((more.take (width lead - 2)).takeWhile continues).length
    else 0

/-- The text of bytes, with a replacement character for each gap. -/
def lossy (bytes : List UInt8) : List Char :=
  match bytes with
  | [] => []
  | lead :: rest =>
    let n := reach lead rest
    let c := if n + 1 = width lead then assemble lead (rest.take n) else replacement
    c :: lossy (rest.drop n)
termination_by bytes.length
decreasing_by
  simp only [List.length_cons, List.length_drop]
  omega

end BatchAxpby.Utf8
