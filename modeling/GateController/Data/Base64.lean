import Mathlib.Data.List.DropRight

/-!
# Base64url

Bytes in the URL-safe alphabet.  Three bytes are four symbols, and a last group of one
or two bytes is two or three symbols, filled up with `=`.  Decoding drops the bits that
the last group has left over, so a text need not be the encoding of what it decodes to.
-/

namespace Data

namespace Base64

/-- The symbols, in order. -/
def alphabet : List Char :=
  "ABCDEFGHIJKLMNOPQRSTUVWXYZabcdefghijklmnopqrstuvwxyz0123456789-_".toList

/-- The symbol of a number below 64. -/
def symbol (n : Nat) : Char := alphabet.getD n 'A'

/-- The number of a symbol. -/
def value? (c : Char) : Option Nat := alphabet.idxOf? c

/-- How many `=` fill the last group of a text of this length. -/
def padding (n : Nat) : Nat := (4 - n % 4) % 4

/-- The encoding without the `=`. -/
def encode : List UInt8 → List Char
  | [] => []
  | [a] => [symbol (a.toNat / 4), symbol (a.toNat % 4 * 16)]
  | [a, b] =>
      [symbol (a.toNat / 4), symbol (a.toNat % 4 * 16 + b.toNat / 16),
        symbol (b.toNat % 16 * 4)]
  | a :: b :: c :: rest =>
      symbol (a.toNat / 4) :: symbol (a.toNat % 4 * 16 + b.toNat / 16) ::
        symbol (b.toNat % 16 * 4 + c.toNat / 64) :: symbol (c.toNat % 64) :: encode rest

/-- The encoding. -/
def urlsafeB64encode (bytes : List UInt8) : List Char :=
  encode bytes ++ List.replicate (padding (encode bytes).length) '='

/-- The bytes of symbols without the `=`. -/
def decode : List Char → Option (List UInt8)
  | [] => some []
  | [_] => none
  | [x, y] => do
      let p ← value? x
      let q ← value? y
      return [.ofNat (p * 4 + q / 16)]
  | [x, y, z] => do
      let p ← value? x
      let q ← value? y
      let r ← value? z
      return [.ofNat (p * 4 + q / 16), .ofNat (q % 16 * 16 + r / 4)]
  | x :: y :: z :: w :: rest => do
      let p ← value? x
      let q ← value? y
      let r ← value? z
      let s ← value? w
      let bytes ← decode rest
      return .ofNat (p * 4 + q / 16) :: .ofNat (q % 16 * 16 + r / 4) ::
        .ofNat (r % 4 * 64 + s) :: bytes

/-- `rstrip("=")`. -/
def unpadded (text : List Char) : List Char := text.rdropWhile (· == '=')

/-- The bytes of a text that is filled up with `=`. -/
def b64decode (text : List Char) : Option (List UInt8) :=
  let symbols := unpadded text
  if text = symbols ++ List.replicate (padding symbols.length) '=' then decode symbols else none

/-! ## Round trip -/

theorem value?_symbol {n : Nat} (h : n < 64) : value? (symbol n) = some n :=
  (by decide : ∀ n ∈ List.range 64, value? (symbol n) = some n) n (List.mem_range.2 h)

theorem symbol_mem {n : Nat} (h : n < 64) : symbol n ∈ alphabet :=
  (by decide : ∀ n ∈ List.range 64, symbol n ∈ alphabet) n (List.mem_range.2 h)

/-- Only symbols are written. -/
theorem encode_subset (bytes : List UInt8) : encode bytes ⊆ alphabet := by
  induction bytes using encode.induct with
  | case1 => exact List.nil_subset _
  | case2 a =>
      have ha : a.toNat < 256 := a.toNat_lt
      rw [encode]
      intro c hc
      simp only [List.mem_cons, List.not_mem_nil, or_false] at hc
      rcases hc with rfl | rfl
      · exact symbol_mem (by omega)
      · exact symbol_mem (by omega)
  | case3 a b =>
      have ha : a.toNat < 256 := a.toNat_lt
      have hb : b.toNat < 256 := b.toNat_lt
      rw [encode]
      intro c hc
      simp only [List.mem_cons, List.not_mem_nil, or_false] at hc
      rcases hc with rfl | rfl | rfl
      · exact symbol_mem (by omega)
      · exact symbol_mem (by omega)
      · exact symbol_mem (by omega)
  | case4 a b c rest ih =>
      have ha : a.toNat < 256 := a.toNat_lt
      have hb : b.toNat < 256 := b.toNat_lt
      have hc : c.toNat < 256 := c.toNat_lt
      rw [encode]
      intro d hd
      simp only [List.mem_cons] at hd
      rcases hd with rfl | rfl | rfl | rfl | hd
      · exact symbol_mem (by omega)
      · exact symbol_mem (by omega)
      · exact symbol_mem (by omega)
      · exact symbol_mem (by omega)
      · exact ih hd

/-- The encoding decodes to the bytes. -/
theorem decode_encode (bytes : List UInt8) : decode (encode bytes) = some bytes := by
  induction bytes using encode.induct with
  | case1 => rfl
  | case2 a =>
      have ha : a.toNat < 256 := a.toNat_lt
      have hbyte : a.toNat / 4 * 4 + a.toNat % 4 * 16 / 16 = a.toNat := by omega
      rw [encode, decode, value?_symbol (by omega), value?_symbol (by omega)]
      change some [UInt8.ofNat (a.toNat / 4 * 4 + a.toNat % 4 * 16 / 16)] = _
      rw [hbyte, UInt8.ofNat_toNat]
  | case3 a b =>
      have ha : a.toNat < 256 := a.toNat_lt
      have hb : b.toNat < 256 := b.toNat_lt
      have hfirst : a.toNat / 4 * 4 + (a.toNat % 4 * 16 + b.toNat / 16) / 16 = a.toNat := by omega
      have hsecond : (a.toNat % 4 * 16 + b.toNat / 16) % 16 * 16 + b.toNat % 16 * 4 / 4 =
          b.toNat := by omega
      rw [encode, decode, value?_symbol (by omega), value?_symbol (by omega),
        value?_symbol (by omega)]
      change some [UInt8.ofNat (a.toNat / 4 * 4 + (a.toNat % 4 * 16 + b.toNat / 16) / 16),
        UInt8.ofNat ((a.toNat % 4 * 16 + b.toNat / 16) % 16 * 16 + b.toNat % 16 * 4 / 4)] = _
      rw [hfirst, hsecond, UInt8.ofNat_toNat, UInt8.ofNat_toNat]
  | case4 a b c rest ih =>
      have ha : a.toNat < 256 := a.toNat_lt
      have hb : b.toNat < 256 := b.toNat_lt
      have hc : c.toNat < 256 := c.toNat_lt
      have hfirst : a.toNat / 4 * 4 + (a.toNat % 4 * 16 + b.toNat / 16) / 16 = a.toNat := by omega
      have hsecond : (a.toNat % 4 * 16 + b.toNat / 16) % 16 * 16 +
          (b.toNat % 16 * 4 + c.toNat / 64) / 4 = b.toNat := by omega
      have hthird : (b.toNat % 16 * 4 + c.toNat / 64) % 4 * 64 + c.toNat % 64 = c.toNat := by omega
      rw [encode, decode, value?_symbol (by omega), value?_symbol (by omega),
        value?_symbol (by omega), value?_symbol (by omega), ih]
      change some (UInt8.ofNat (a.toNat / 4 * 4 + (a.toNat % 4 * 16 + b.toNat / 16) / 16) ::
        UInt8.ofNat ((a.toNat % 4 * 16 + b.toNat / 16) % 16 * 16 +
          (b.toNat % 16 * 4 + c.toNat / 64) / 4) ::
        UInt8.ofNat ((b.toNat % 16 * 4 + c.toNat / 64) % 4 * 64 + c.toNat % 64) :: rest) = _
      rw [hfirst, hsecond, hthird, UInt8.ofNat_toNat, UInt8.ofNat_toNat, UInt8.ofNat_toNat]

/-- No group has a single symbol. -/
theorem length_encode_mod (bytes : List UInt8) : (encode bytes).length % 4 ≠ 1 := by
  induction bytes using encode.induct with
  | case1 => decide
  | case2 a => simp [encode]
  | case3 a b => simp [encode]
  | case4 a b c rest ih =>
      simp only [encode, List.length_cons]
      omega

theorem encode_eq_nil_iff {bytes : List UInt8} : encode bytes = [] ↔ bytes = [] := by
  constructor
  · intro h
    have hdecode := decode_encode bytes
    rw [h] at hdecode
    exact (Option.some.inj hdecode).symm
  · rintro rfl
    rfl

/-! ## Padding -/

/-- What has no `=` at its end is left when the padding is stripped. -/
theorem unpadded_append {text : List Char} (h : '=' ∉ text) (n : Nat) :
    unpadded (text ++ List.replicate n '=') = text := by
  rw [unpadded, List.rdropWhile, List.reverse_append, List.reverse_replicate]
  have hdrop : ∀ n, (List.replicate n '=' ++ text.reverse).dropWhile (· == '=') = text.reverse := by
    intro n
    induction n with
    | zero =>
        cases hrev : text.reverse with
        | nil => rfl
        | cons c rest =>
            have hc : c ∈ text := List.mem_reverse.1 (hrev ▸ List.mem_cons_self)
            have hne : (c == '=') = false := beq_eq_false_iff_ne.2 fun heq => h (heq ▸ hc)
            simp [hne]
    | succ n ih =>
        rw [List.replicate_succ, List.cons_append, List.dropWhile_cons]
        simpa using ih
  rw [hdrop, List.reverse_reverse]

theorem pad_not_mem_encode (bytes : List UInt8) : '=' ∉ encode bytes := by
  intro h
  exact absurd (encode_subset bytes h) (by decide)

@[simp] theorem unpadded_urlsafeB64encode (bytes : List UInt8) :
    unpadded (urlsafeB64encode bytes) = encode bytes :=
  unpadded_append (pad_not_mem_encode bytes) _

/-- Filled up, symbols decode as they are. -/
theorem b64decode_padded {text : List Char} (h : '=' ∉ text) :
    b64decode (text ++ List.replicate (padding text.length) '=') = decode text := by
  rw [b64decode, unpadded_append h, if_pos rfl]

end Base64

end Data
