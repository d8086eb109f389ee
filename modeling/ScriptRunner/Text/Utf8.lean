/-!
# Bytes as text

UTF-8 in both directions.  `decode?` reads a byte sequence only if it is well formed; `decodeLossy` reads any
sequence and puts one replacement character in the place of every longest ill-formed part.
-/

namespace ScriptRunner.Text

/-- The character that stands for bytes that are no text. -/
def replacement : Char := '\uFFFD'

/-- The bounds of the second byte of a character that starts with `b`, and the number of bytes after the first. -/
private def shape? (b : UInt8) : Option (Nat × UInt8 × UInt8) :=
  if b < 0x80 then some (0, 0, 0)
  else if b < 0xc2 then none
  else if b < 0xe0 then some (1, 0x80, 0xbf)
  else if b = 0xe0 then some (2, 0xa0, 0xbf)
  else if b = 0xed then some (2, 0x80, 0x9f)
  else if b < 0xf0 then some (2, 0x80, 0xbf)
  else if b = 0xf0 then some (3, 0x90, 0xbf)
  else if b < 0xf4 then some (3, 0x80, 0xbf)
  else if b = 0xf4 then some (3, 0x80, 0x8f)
  else none

/-- The value bits of a first byte that has `k` bytes after it. -/
private def leading (b : UInt8) (k : Nat) : Nat :=
  match k with
  | 0 => b.toNat
  | 1 => b.toNat % 0x20
  | 2 => b.toNat % 0x10
  | _ => b.toNat % 0x08

/-- Reads `k` bytes after a first one, the next of them within the bounds.  Gives the character, or how many
bytes were good. -/
private def continuation (value : Nat) (good : Nat) (lo hi : UInt8) : Nat → List UInt8 → Char ⊕ Nat
  | 0, _ => .inl (Char.ofNat value)
  | _ + 1, [] => .inr good
  | k + 1, b :: rest =>
    if lo ≤ b && b ≤ hi then continuation (value * 0x40 + b.toNat % 0x40) (good + 1) 0x80 0xbf k rest
    else .inr good

/-- One character at the front, or none where the bytes are ill formed, with the number of bytes it takes. -/
def decodeOne (b : UInt8) (rest : List UInt8) : Option Char × Nat :=
  match shape? b with
  | none => (none, 1)
  | some (k, lo, hi) =>
    match continuation (leading b k) 1 lo hi k rest with
    | .inl c => (some c, k + 1)
    | .inr good => (none, good)

/-- The characters of a byte sequence, none in the place of an ill-formed part. -/
def decodeParts : List UInt8 → List (Option Char)
  | [] => []
  | b :: rest =>
    let one := decodeOne b rest
    one.1 :: decodeParts (rest.drop (one.2 - 1))
termination_by bs => bs.length
decreasing_by exact Nat.lt_succ_of_le (List.length_drop ▸ Nat.sub_le _ _)

/-- The text of a well-formed byte sequence. -/
def decode? (bs : List UInt8) : Option String :=
  ((decodeParts bs).mapM id).map String.ofList

/-- The text of any byte sequence. -/
def decodeLossy (bs : List UInt8) : String :=
  String.ofList ((decodeParts bs).map (·.getD replacement))

/-- The bytes of a text. -/
def encode (s : String) : List UInt8 := s.toUTF8.toList

private theorem toList_loop_eq (bs : ByteArray) (i : Nat) (r : List UInt8) :
    ByteArray.toList.loop bs i r = r.reverse ++ bs.data.toList.drop i := by
  have hlen : bs.data.toList.length = bs.size := Array.length_toList
  induction h : bs.size - i generalizing i r with
  | zero =>
    rw [ByteArray.toList.loop, if_neg (by omega), List.drop_of_length_le (by omega), List.append_nil]
  | succ n ih =>
    rw [ByteArray.toList.loop, if_pos (by omega), ih _ _ (by omega)]
    have hi : i < bs.data.toList.length := by omega
    have hget : bs.get! i = bs.data.toList[i] := getElem!_pos bs.data i (by simpa using hi)
    rw [List.drop_eq_getElem_cons hi, hget, List.reverse_cons, List.append_assoc, List.singleton_append]

private theorem encode_eq (s : String) : encode s = s.toUTF8.data.toList := by
  rw [encode, ByteArray.toList, toList_loop_eq, List.drop_zero]
  rfl

@[simp] theorem encode_append (s t : String) : encode (s ++ t) = encode s ++ encode t := by
  rw [encode_eq, encode_eq, encode_eq]
  simp

@[simp] theorem length_encode (s : String) : (encode s).length = s.utf8ByteSize := by
  rw [encode_eq]
  rfl

end ScriptRunner.Text
