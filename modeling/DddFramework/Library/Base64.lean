import Mathlib.Data.List.DropRight

/-! URL-safe base64 whose padding is dropped and put back. The decoder is the
automaton of `binascii`, which takes data characters four at a time; its strict
mode refuses foreign characters and misplaced padding, its lenient mode skips them. -/
namespace DddFramework.Library.Base64

def alphabet : List Char :=
  "ABCDEFGHIJKLMNOPQRSTUVWXYZabcdefghijklmnopqrstuvwxyz0123456789-_".toList

def charOf (digit : Nat) : Char := alphabet.getD digit 'A'

def digitOf (c : Char) : Option Nat :=
  if c = '+' then some 62
  else if c = '/' then some 63
  else alphabet.findIdx? (· == c)

def encodeDigits : List UInt8 → List Nat
  | a :: b :: c :: rest =>
    a.toNat / 4 :: (a.toNat % 4 * 16 + b.toNat / 16) :: (b.toNat % 16 * 4 + c.toNat / 64) ::
      (c.toNat % 64) :: encodeDigits rest
  | [a, b] => [a.toNat / 4, a.toNat % 4 * 16 + b.toNat / 16, b.toNat % 16 * 4]
  | [a] => [a.toNat / 4, a.toNat % 4 * 16]
  | [] => []

def encode (bytes : List UInt8) : List Char :=
  (encodeDigits bytes).map charOf ++ List.replicate ((3 - bytes.length % 3) % 3) '='

def strip (text : List Char) : List Char := text.rdropWhile (· == '=')

/-- `text + "=" * (-len(text) % 4)`. -/
def repad (text : List Char) : List Char :=
  text ++ List.replicate ((4 - text.length % 4) % 4) '='

/-- The state of `a2b_base64` between two characters. -/
structure Decoder where
  quadPos : Nat
  leftchar : Nat
  pads : Nat
  paddingStarted : Bool
  bytes : List UInt8

def Decoder.start : Decoder := ⟨0, 0, 0, false, []⟩

def Decoder.push (d : Decoder) (digit : Nat) : Decoder :=
  match d.quadPos with
  | 0 => { d with quadPos := 1, leftchar := digit, pads := 0 }
  | 1 => { d with
      quadPos := 2, leftchar := digit % 16, pads := 0
      bytes := d.bytes ++ [UInt8.ofNat (d.leftchar * 4 + digit / 16)] }
  | 2 => { d with
      quadPos := 3, leftchar := digit % 4, pads := 0
      bytes := d.bytes ++ [UInt8.ofNat (d.leftchar * 16 + digit / 4)] }
  | _ => { d with
      quadPos := 0, leftchar := 0, pads := 0
      bytes := d.bytes ++ [UInt8.ofNat (d.leftchar * 64 + digit)] }

/-- `binascii.a2b_base64` from a state on; `none` is `binascii.Error`. -/
def decodeFrom (strict : Bool) : Decoder → List Char → Option (List UInt8)
  | d, [] => if d.quadPos = 0 then some d.bytes else none
  | d, c :: rest =>
    if c = '=' then
      if strict && d.quadPos == 0 then none
      else if 2 ≤ d.quadPos then
        -- a full pad sequence ends the input
        if 4 ≤ d.quadPos + (d.pads + 1) then
          if strict && !rest.isEmpty then none else some d.bytes
        else decodeFrom strict { d with pads := d.pads + 1, paddingStarted := true } rest
      else decodeFrom strict { d with paddingStarted := true } rest
    else
      match digitOf c with
      | none => if strict then none else decodeFrom strict d rest
      | some digit =>
        if strict && d.paddingStarted then none else decodeFrom strict (d.push digit) rest

def decode (strict : Bool) (text : List Char) : Option (List UInt8) :=
  decodeFrom strict .start text

theorem digitOf_charOf {digit : Nat} (h : digit < 64) : digitOf (charOf digit) = some digit := by
  revert digit
  decide +kernel

theorem charOf_ne_pad {digit : Nat} (h : digit < 64) : charOf digit ≠ '=' := by
  revert digit
  decide +kernel

theorem encodeDigits_lt (bytes : List UInt8) : ∀ digit ∈ encodeDigits bytes, digit < 64 := by
  fun_induction encodeDigits bytes with
  | case1 a b c rest ih =>
    have ha := a.toNat_lt
    have hb := b.toNat_lt
    have hc := c.toNat_lt
    simp only [List.forall_mem_cons]
    refine ⟨?_, ?_, ?_, ?_, ih⟩ <;> omega
  | case2 a b =>
    have ha := a.toNat_lt
    have hb := b.toNat_lt
    simp only [List.forall_mem_cons, List.not_mem_nil, false_imp_iff, implies_true, and_true]
    refine ⟨?_, ?_, ?_⟩ <;> omega
  | case3 a =>
    have ha := a.toNat_lt
    simp only [List.forall_mem_cons, List.not_mem_nil, false_imp_iff, implies_true, and_true]
    constructor <;> omega
  | case4 => simp

theorem encodeDigits_length (bytes : List UInt8) :
    (encodeDigits bytes).length = (4 * bytes.length + 2) / 3 := by
  fun_induction encodeDigits bytes with
  | case1 a b c rest ih =>
    simp only [List.length_cons, ih]
    omega
  | case2 | case3 | case4 => simp

theorem strip_encode (bytes : List UInt8) :
    strip (encode bytes) = (encodeDigits bytes).map charOf := by
  have hpads : ∀ (text : List Char) n, strip (text ++ List.replicate n '=') = strip text := by
    intro text n
    induction n with
    | zero => simp
    | succ n ih =>
      rw [List.replicate_succ', ← List.append_assoc, strip, List.rdropWhile_concat_pos _ _ _ rfl]
      exact ih
  rw [encode, hpads, strip, List.rdropWhile_eq_self_iff]
  intro hne
  obtain ⟨digit, hdigit, hlast⟩ := List.mem_map.mp (List.getLast_mem hne)
  have hpad := charOf_ne_pad (encodeDigits_lt bytes digit hdigit)
  simpa [← hlast] using hpad

/-- Dropping the padding and putting it back by the length gives the encoder's text. -/
theorem repad_strip_encode (bytes : List UInt8) : repad (strip (encode bytes)) = encode bytes := by
  have hpad : (4 - (4 * bytes.length + 2) / 3 % 4) % 4 = (3 - bytes.length % 3) % 3 := by
    have hthree : bytes.length % 3 = 0 ∨ bytes.length % 3 = 1 ∨ bytes.length % 3 = 2 := by omega
    rcases hthree with h | h | h <;> omega
  rw [strip_encode, repad, encode, List.length_map, encodeDigits_length, hpad]

section decoding
variable (strict : Bool)

theorem decodeFrom_charOf {d : Decoder} {digit : Nat} {rest : List Char} (h : digit < 64)
    (hpad : d.paddingStarted = false) :
    decodeFrom strict d (charOf digit :: rest) = decodeFrom strict (d.push digit) rest := by
  rw [decodeFrom, if_neg (charOf_ne_pad h)]
  simp [digitOf_charOf h, hpad]

theorem ofNat_eq_of_toNat {a : UInt8} {n : Nat} (h : n = a.toNat) : UInt8.ofNat n = a := by
  rw [h, UInt8.ofNat_toNat]

/-- From a quad border on, the decoder appends the bytes that were encoded. -/
theorem decodeFrom_encode (bytes out : List UInt8) (pads : Nat) :
    decodeFrom strict ⟨0, 0, pads, false, out⟩ (encode bytes) = some (out ++ bytes) := by
  have hdigits := encodeDigits_lt bytes
  unfold encode
  fun_induction encodeDigits bytes generalizing out pads with
  | case1 a b c rest ih =>
    have hb := b.toNat_lt
    have hc := c.toNat_lt
    simp only [List.forall_mem_cons] at hdigits
    obtain ⟨h1, h2, h3, h4, hrest⟩ := hdigits
    have hlength : (3 - (a :: b :: c :: rest).length % 3) % 3 = (3 - rest.length % 3) % 3 := by
      simp only [List.length_cons]
      omega
    have hfirst : UInt8.ofNat (a.toNat / 4 * 4 + (a.toNat % 4 * 16 + b.toNat / 16) / 16) = a :=
      ofNat_eq_of_toNat (by omega)
    have hsecond : UInt8.ofNat ((a.toNat % 4 * 16 + b.toNat / 16) % 16 * 16 +
        (b.toNat % 16 * 4 + c.toNat / 64) / 4) = b := ofNat_eq_of_toNat (by omega)
    have hthird : UInt8.ofNat ((b.toNat % 16 * 4 + c.toNat / 64) % 4 * 64 + c.toNat % 64) = c :=
      ofNat_eq_of_toNat (by omega)
    simp only [List.map_cons, List.cons_append, decodeFrom_charOf strict h1,
      decodeFrom_charOf strict h2, decodeFrom_charOf strict h3, decodeFrom_charOf strict h4,
      Decoder.push, hfirst, hsecond, hthird, hlength, ih _ _ hrest]
    simp
  | case2 a b =>
    have hb := b.toNat_lt
    simp only [List.forall_mem_cons] at hdigits
    obtain ⟨h1, h2, h3, -⟩ := hdigits
    have hfirst : UInt8.ofNat (a.toNat / 4 * 4 + (a.toNat % 4 * 16 + b.toNat / 16) / 16) = a :=
      ofNat_eq_of_toNat (by omega)
    have hsecond : UInt8.ofNat ((a.toNat % 4 * 16 + b.toNat / 16) % 16 * 16 +
        b.toNat % 16 * 4 / 4) = b := ofNat_eq_of_toNat (by omega)
    simp only [List.map_cons, List.cons_append, decodeFrom_charOf strict h1,
      decodeFrom_charOf strict h2, decodeFrom_charOf strict h3, Decoder.push, hfirst, hsecond]
    simp [decodeFrom]
  | case3 a =>
    simp only [List.forall_mem_cons] at hdigits
    obtain ⟨h1, h2, -⟩ := hdigits
    have hfirst : UInt8.ofNat (a.toNat / 4 * 4 + a.toNat % 4 * 16 / 16) = a :=
      ofNat_eq_of_toNat (by omega)
    simp only [List.map_cons, List.cons_append, decodeFrom_charOf strict h1,
      decodeFrom_charOf strict h2, Decoder.push, hfirst]
    simp [decodeFrom]
  | case4 => simp [decodeFrom]

theorem decode_repad_strip_encode (bytes : List UInt8) :
    decode strict (repad (strip (encode bytes))) = some bytes := by
  rw [repad_strip_encode, decode, Decoder.start, decodeFrom_encode, List.nil_append]

end decoding

theorem charOf_isAscii {digit : Nat} (h : digit < 64) : (charOf digit).val < 128 := by
  revert digit
  decide +kernel

theorem strip_encode_isAscii (bytes : List UInt8) : ∀ c ∈ strip (encode bytes), c.val < 128 := by
  rw [strip_encode]
  intro c hc
  obtain ⟨digit, hdigit, rfl⟩ := List.mem_map.mp hc
  exact charOf_isAscii (encodeDigits_lt bytes digit hdigit)

theorem repad_strip_encode_isAscii (bytes : List UInt8) :
    (repad (strip (encode bytes))).all (fun c => c.val < 128) = true := by
  rw [List.all_eq_true]
  intro c hc
  rcases List.mem_append.mp hc with hc | hc
  · exact decide_eq_true (strip_encode_isAscii bytes c hc)
  · rw [List.eq_of_mem_replicate hc]
    decide

end DddFramework.Library.Base64
