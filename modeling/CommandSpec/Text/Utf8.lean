/-! Reading bytes as text where they need not be valid. Each longest start of a
character that goes wrong becomes one replacement character. -/
namespace CommandSpec.Text

def replacement : Char := Char.ofNat 0xfffd

/-- Whether `b` may follow the lead byte `lead` of a longer character. -/
def mayFollow (lead b : UInt8) : Bool :=
  if lead == 0xe0 then 0xa0 ≤ b && b ≤ 0xbf
  else if lead == 0xed then 0x80 ≤ b && b ≤ 0x9f
  else if lead == 0xf0 then 0x90 ≤ b && b ≤ 0xbf
  else if lead == 0xf4 then 0x80 ≤ b && b ≤ 0x8f
  else 0x80 ≤ b && b ≤ 0xbf

def isContinuation (b : UInt8) : Bool := 0x80 ≤ b && b ≤ 0xbf

/-- The length of the character that `lead` begins; 0 if it begins none. -/
def leadLength (lead : UInt8) : Nat :=
  if lead < 0x80 then 1
  else if 0xc2 ≤ lead && lead ≤ 0xdf then 2
  else if 0xe0 ≤ lead && lead ≤ 0xef then 3
  else if 0xf0 ≤ lead && lead ≤ 0xf4 then 4
  else 0

private def joinBits (lead : UInt8) (mask : Nat) (tail : List UInt8) : Char :=
  Char.ofNat (tail.foldl (fun n b => n * 64 + b.toNat % 64) (lead.toNat % mask))

def decodeLossyBytes : List UInt8 → List Char
  | [] => []
  | lead :: rest =>
    match leadLength lead with
    | 1 => Char.ofNat lead.toNat :: decodeLossyBytes rest
    | 2 =>
      match rest with
      | b :: rest' =>
        if mayFollow lead b then joinBits lead 32 [b] :: decodeLossyBytes rest'
        else replacement :: decodeLossyBytes (b :: rest')
      | [] => [replacement]
    | 3 =>
      match rest with
      | b :: rest' =>
        if mayFollow lead b then
          match rest' with
          | c :: rest'' =>
            if isContinuation c then joinBits lead 16 [b, c] :: decodeLossyBytes rest''
            else replacement :: decodeLossyBytes (c :: rest'')
          | [] => [replacement]
        else replacement :: decodeLossyBytes (b :: rest')
      | [] => [replacement]
    | 4 =>
      match rest with
      | b :: rest' =>
        if mayFollow lead b then
          match rest' with
          | c :: rest'' =>
            if isContinuation c then
              match rest'' with
              | d :: rest''' =>
                if isContinuation d then joinBits lead 8 [b, c, d] :: decodeLossyBytes rest'''
                else replacement :: decodeLossyBytes (d :: rest''')
              | [] => [replacement]
            else replacement :: decodeLossyBytes (c :: rest'')
          | [] => [replacement]
        else replacement :: decodeLossyBytes (b :: rest')
      | [] => [replacement]
    | _ => replacement :: decodeLossyBytes rest
termination_by bytes => bytes.length

theorem fromUTF8?_toUTF8 (s : String) : String.fromUTF8? s.toUTF8 = some s :=
  dif_pos s.isValidUTF8

/-- The text of valid bytes; of others, the text with replacement characters. -/
def decodeLossy (bytes : ByteArray) : String :=
  match String.fromUTF8? bytes with
  | some s => s
  | none => String.ofList (decodeLossyBytes bytes.toList)

end CommandSpec.Text
