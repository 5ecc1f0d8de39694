import LanguageClient.Text.Utf8

/-!
# `LanguageClient.Proofs.Text.Utf8`: scanning, and the text it reads

`Utf8.scan` reads bytes by the table `Utf8.followers`; `encode` writes a text by
the arithmetic of code points. This file shows that the two agree, and that a
scan can be stopped anywhere and taken up again.

* `followers_cases`: what the table says about a lead byte and the bytes after
  it, as bounds on numbers.
* `encode_assemble` / `exists_fits_encodeChar`: a lead byte with bytes in its
  ranges is a character, and every character is written that way.
* `scanFrom_append`: a scan of `a ++ b` is a scan of `a`, continued. What `a`
  leaves unfinished is read again in front of `b`, with the same effect.
* `encode_append_left`: no byte is lost. What a scan has read and what it has
  left make up the bytes it was given.
* `scanFrom_encode`: a text in front of other bytes is read as it was written.
* `scan_of_append_eq_encode`: the bytes of a text, cut anywhere, leave nothing
  or an unfinished sequence before the cut, and never an invalid one.
* `decode?_eq_some_iff`: the bytes of a text are read as that text, and no others are.

The state of a scan is an `Option Partial`. Not every `Partial` can occur, so the
statements about a scan in the middle carry `Partial.Begun`: reading the bytes of
the sequence from the start leads to it, and any completion of it is a character.
-/

set_option autoImplicit false

namespace LanguageClient.Text

/-! ### Texts -/

/-- The empty text has no bytes. -/
@[simp] theorem encode_nil : encode [] = [] := rfl

/-- The bytes of a text are those of its first character, then those of the rest. The inductions
over a text use this equation. -/
theorem encode_cons (c : Char) (s : List Char) :
    encode (c :: s) = String.utf8EncodeChar c ++ encode s := rfl

/-- Texts put together have their bytes put together. So a text that is cut between two characters
has its bytes cut there. -/
@[simp] theorem encode_append (s t : List Char) : encode (s ++ t) = encode s ++ encode t := by
  simp [encode, List.flatMap_append]

/-- The size of a text, starting from a number of bytes before it. `byteLength` is a fold with an
accumulator; this takes the accumulator out. -/
private theorem foldl_utf8Size (n : Nat) (s : List Char) :
    s.foldl (fun n c => n + c.utf8Size) n = n + byteLength s := by
  induction s generalizing n with
  | nil => rfl
  | cons c s ih =>
    show s.foldl _ (n + c.utf8Size) = n + s.foldl _ (0 + c.utf8Size)
    rw [ih, ih (0 + c.utf8Size)]
    omega

/-- The empty text has no size. -/
@[simp] theorem byteLength_nil : byteLength [] = 0 := rfl

/-- The size of a text, character by character. -/
@[simp] theorem byteLength_cons (c : Char) (s : List Char) :
    byteLength (c :: s) = c.utf8Size + byteLength s := by
  show s.foldl _ (0 + c.utf8Size) = _
  rw [foldl_utf8Size, Nat.zero_add]

/-- The size of a text is the number of its bytes. So a length that is computed without writing the
bytes is the length of what is written. -/
theorem length_encode (s : List Char) : (encode s).length = byteLength s := by
  induction s with
  | nil => rfl
  | cons c s ih =>
    rw [encode_cons, List.length_append, String.length_utf8EncodeChar, ih, byteLength_cons]

/-- Sizes add up. -/
theorem byteLength_append (s t : List Char) :
    byteLength (s ++ t) = byteLength s + byteLength t := by
  rw [← length_encode, encode_append, List.length_append, length_encode, length_encode]

namespace Utf8

/-! ### The table over numbers -/

/-- Whether bytes lie in ranges, one in each. -/
def fits : List ByteRange → List UInt8 → Bool
  | [], [] => true
  | r :: ranges, b :: bytes => r.contains b && fits ranges bytes
  | _, _ => false

/-- The code point that a sequence denotes, from what its first bytes say. -/
def assemble (value : Nat) (bytes : List UInt8) : Nat :=
  bytes.foldl (fun v b => 64 * v + b.toNat % 64) value

/-- Without ranges only the empty list of bytes fits. -/
theorem fits_nil {bytes : List UInt8} : fits [] bytes = true ↔ bytes = [] := by
  cases bytes <;> simp [fits]

/-- The first byte lies in the first range, and the others fit the other ranges. The proofs below
take sequences apart with this, one byte at a time. -/
theorem fits_cons {r : ByteRange} {ranges : List ByteRange} {bytes : List UInt8} :
    fits (r :: ranges) bytes = true
      ↔ ∃ b rest, bytes = b :: rest ∧ r.contains b = true ∧ fits ranges rest = true := by
  cases bytes with
  | nil => simp [fits]
  | cons b rest => simp [fits, and_assoc]

/-- A range over numbers, where `omega` can decide about it. -/
theorem contains_iff {low high b : UInt8} :
    (ByteRange.mk low high).contains b = true
      ↔ low.toNat ≤ b.toNat ∧ b.toNat ≤ high.toNat := by
  simp [ByteRange.contains, UInt8.le_iff_toNat_le]

/-- What the table says. The length of a sequence follows from its lead byte, and
every byte after the lead byte continues a sequence; the second one is bounded
further where the sequence would be overlong, a surrogate or too large. -/
theorem followers_cases {b : UInt8} {ranges : List ByteRange}
    (h : followers b = some ranges) :
    (ranges = [] ∧ b.toNat < 0x80) ∨
    (ranges = [continuation] ∧ 0xC2 ≤ b.toNat ∧ b.toNat < 0xE0) ∨
    (∃ range, ranges = [range, continuation] ∧ (0xE0 ≤ b.toNat ∧ b.toNat < 0xF0) ∧
      ∀ c : UInt8, range.contains c = true → (0x80 ≤ c.toNat ∧ c.toNat ≤ 0xBF) ∧
        (b.toNat = 0xE0 → 0xA0 ≤ c.toNat) ∧ (b.toNat = 0xED → c.toNat ≤ 0x9F)) ∨
    (∃ range, ranges = [range, continuation, continuation] ∧
      (0xF0 ≤ b.toNat ∧ b.toNat < 0xF5) ∧
      ∀ c : UInt8, range.contains c = true → (0x80 ≤ c.toNat ∧ c.toNat ≤ 0xBF) ∧
        (b.toNat = 0xF0 → 0x90 ≤ c.toNat) ∧ (b.toNat = 0xF4 → c.toNat ≤ 0x8F)) := by
  -- Everything is said over numbers from here on.
  simp only [followers, UInt8.lt_iff_toNat_lt, beq_iff_eq, ← UInt8.toNat_inj,
    UInt8.reduceToNat] at h
  split at h
  · exact .inl ⟨(Option.some.inj h).symm, ‹_›⟩
  -- Bytes from `0x80` below `0xC2` have no row: they begin no sequence.
  split at h
  · cases h
  split at h
  · exact .inr (.inl ⟨(Option.some.inj h).symm, by omega, ‹_›⟩)
  -- The three rows of sequences of three bytes, then those of four.
  iterate 3
    split at h
    · refine .inr (.inr (.inl ⟨_, (Option.some.inj h).symm, by omega, fun c hc => ?_⟩))
      have hrange := contains_iff.mp hc
      simp only [UInt8.reduceToNat] at hrange
      omega
  -- The three rows of four bytes: the second byte bounds the code point from both sides.
  iterate 3
    split at h
    · refine .inr (.inr (.inr ⟨_, (Option.some.inj h).symm, by omega, fun c hc => ?_⟩))
      have hrange := contains_iff.mp hc
      simp only [UInt8.reduceToNat] at hrange
      omega
  cases h

/-- The table read at a number. An encoder computes its bytes as numbers, so its side of the proofs
needs the table in this form. -/
theorem followers_ofNat (n : Nat) (h : n < 256) :
    followers (UInt8.ofNat n) =
      if n < 0x80 then some []
      else if n < 0xC2 then none
      else if n < 0xE0 then some [continuation]
      else if n = 0xE0 then some [⟨0xA0, 0xBF⟩, continuation]
      else if n = 0xED then some [⟨0x80, 0x9F⟩, continuation]
      else if n < 0xF0 then some [continuation, continuation]
      else if n = 0xF0 then some [⟨0x90, 0xBF⟩, continuation, continuation]
      else if n < 0xF4 then some [continuation, continuation, continuation]
      else if n = 0xF4 then some [⟨0x80, 0x8F⟩, continuation, continuation]
      else none := by
  have key : (UInt8.ofNat n).toNat = n := UInt8.toNat_ofNat_of_lt' h
  simp only [followers, UInt8.lt_iff_toNat_lt, beq_iff_eq, ← UInt8.toNat_inj, key]
  rfl

/-- A range read at a number, as `followers_ofNat` reads the table. -/
theorem contains_ofNat {low high : UInt8} {n : Nat} (h : n < 256) :
    (ByteRange.mk low high).contains (UInt8.ofNat n) = true
      ↔ low.toNat ≤ n ∧ n ≤ high.toNat := by
  rw [contains_iff, UInt8.toNat_ofNat_of_lt' h]

/-- The byte that carries the last six bits of a number lies in the range of the bytes that continue
a sequence. -/
theorem continuation_contains (n : Nat) :
    continuation.contains (UInt8.ofNat (n % 64 + 128)) = true := by
  rw [continuation, contains_ofNat (by omega)]
  simp only [UInt8.reduceToNat]
  omega

/-- The bits that a lead byte carries, read at a number. There are fewer of them the longer the
sequence is. -/
theorem leadBits_ofNat (n : Nat) (h : n < 256) :
    leadBits (UInt8.ofNat n) =
      if n < 0x80 then n
      else if n < 0xE0 then n % 32
      else if n < 0xF0 then n % 16
      else n % 8 := by
  have key : (UInt8.ofNat n).toNat = n := UInt8.toNat_ofNat_of_lt' h
  simp only [leadBits, UInt8.lt_iff_toNat_lt, key]
  rfl

/-- The bits that a continuation byte carries: the last six bits of the number it was made from. -/
theorem continuation_bits (n : Nat) : (UInt8.ofNat (n % 64 + 128)).toNat % 64 = n % 64 := by
  rw [UInt8.toNat_ofNat_of_lt' (by show _ < 256; omega)]
  omega

/-! ### Characters and their bytes -/

/-- A number that is no surrogate and not too large is the code point of its character. -/
theorem toNat_charOfNat {n : Nat} (h : n < 0xD800 ∨ 0xDFFF < n ∧ n < 0x110000) :
    (Char.ofNat n).val.toNat = n := by
  have hvalid : n.isValidChar := h
  have hchar : Char.ofNat n = Char.ofNatAux n hvalid := dif_pos hvalid
  rw [hchar]
  rfl

/-- A byte is determined by its number, so the arithmetic of the cases below is left to `omega`. -/
theorem byteOfNat_eq {b : UInt8} {n : Nat} (h : n % 256 = b.toNat) : UInt8.ofNat n = b := by
  rw [← UInt8.toNat_inj, UInt8.toNat_ofNat']
  exact h

/-- Two bytes in range are the character whose bits they carry. The lead byte is at least `0xC2`:
below it the sequence would be overlong. -/
private theorem encode_two {a b : UInt8} (ha : 0xC2 ≤ a.toNat ∧ a.toNat < 0xE0)
    (hb : 0x80 ≤ b.toNat ∧ b.toNat ≤ 0xBF) :
    String.utf8EncodeChar (Char.ofNat (64 * (a.toNat % 32) + b.toNat % 64)) = [a, b] := by
  unfold String.utf8EncodeChar
  simp only [toNat_charOfNat
    (n := 64 * (a.toNat % 32) + b.toNat % 64) (by omega)]
  -- The code point needs more than seven bits and no more than eleven.
  rw [if_neg (by omega), if_pos (by omega)]
  simp only [List.cons.injEq, and_true]
  exact ⟨byteOfNat_eq (by omega), byteOfNat_eq (by omega)⟩

/-- Three bytes in range are the character whose bits they carry. `hlong` excludes what two bytes
could hold, `hsurrogate` the surrogates. -/
private theorem encode_three {a b c : UInt8} (ha : 0xE0 ≤ a.toNat ∧ a.toNat < 0xF0)
    (hb : 0x80 ≤ b.toNat ∧ b.toNat ≤ 0xBF) (hc : 0x80 ≤ c.toNat ∧ c.toNat ≤ 0xBF)
    (hlong : a.toNat = 0xE0 → 0xA0 ≤ b.toNat) (hsurrogate : a.toNat = 0xED → b.toNat ≤ 0x9F) :
    String.utf8EncodeChar
        (Char.ofNat (64 * (64 * (a.toNat % 16) + b.toNat % 64) + c.toNat % 64))
      = [a, b, c] := by
  unfold String.utf8EncodeChar
  simp only [toNat_charOfNat
    (n := 64 * (64 * (a.toNat % 16) + b.toNat % 64) + c.toNat % 64) (by omega)]
  -- The code point needs more than eleven bits and no more than sixteen.
  rw [if_neg (by omega), if_neg (by omega), if_pos (by omega)]
  simp only [List.cons.injEq, and_true]
  exact ⟨byteOfNat_eq (by omega), byteOfNat_eq (by omega), byteOfNat_eq (by omega)⟩

/-- Four bytes in range are the character whose bits they carry. `hlong` excludes what three bytes
could hold, `hlarge` what is no code point. -/
private theorem encode_four {a b c d : UInt8} (ha : 0xF0 ≤ a.toNat ∧ a.toNat < 0xF5)
    (hb : 0x80 ≤ b.toNat ∧ b.toNat ≤ 0xBF) (hc : 0x80 ≤ c.toNat ∧ c.toNat ≤ 0xBF)
    (hd : 0x80 ≤ d.toNat ∧ d.toNat ≤ 0xBF)
    (hlong : a.toNat = 0xF0 → 0x90 ≤ b.toNat) (hlarge : a.toNat = 0xF4 → b.toNat ≤ 0x8F) :
    String.utf8EncodeChar
        (Char.ofNat
          (64 * (64 * (64 * (a.toNat % 8) + b.toNat % 64) + c.toNat % 64) + d.toNat % 64))
      = [a, b, c, d] := by
  unfold String.utf8EncodeChar
  simp only [toNat_charOfNat
    (n := 64 * (64 * (64 * (a.toNat % 8) + b.toNat % 64) + c.toNat % 64) + d.toNat % 64)
    (by omega)]
  -- The number is too large for one, two or three bytes, by `hlong`.
  rw [if_neg (by omega), if_neg (by omega), if_neg (by omega)]
  simp only [List.cons.injEq, and_true]
  exact ⟨byteOfNat_eq (by omega), byteOfNat_eq (by omega), byteOfNat_eq (by omega),
    byteOfNat_eq (by omega)⟩

/-- A lead byte with bytes in the ranges that follow it is a character: so whatever a scan reads,
the encoder writes back as it was. -/
theorem encode_assemble {b : UInt8} {ranges : List ByteRange} {bytes : List UInt8}
    (h : followers b = some ranges) (hfit : fits ranges bytes = true) :
    String.utf8EncodeChar (Char.ofNat (assemble (leadBits b) bytes)) = b :: bytes := by
  simp only [leadBits, UInt8.lt_iff_toNat_lt, UInt8.reduceToNat]
  -- One case for each number of bytes, from one to four.
  rcases followers_cases h with ⟨rfl, hb⟩ | ⟨rfl, hb⟩ | ⟨range, rfl, hb, hrange⟩ |
    ⟨range, rfl, hb, hrange⟩
  · obtain rfl := fits_nil.mp hfit
    rw [if_pos hb, assemble, List.foldl_nil]
    unfold String.utf8EncodeChar
    simp only [toNat_charOfNat (n := b.toNat) (by omega)]
    rw [if_pos (by omega), UInt8.ofNat_toNat]
  · obtain ⟨c, _, rfl, hc, hrest⟩ := fits_cons.mp hfit
    obtain rfl := fits_nil.mp hrest
    rw [if_neg (by omega), if_pos hb.2]
    exact encode_two hb (contains_iff.mp hc)
  · obtain ⟨c, _, rfl, hc, hrest⟩ := fits_cons.mp hfit
    obtain ⟨d, _, rfl, hd, hrest⟩ := fits_cons.mp hrest
    obtain rfl := fits_nil.mp hrest
    obtain ⟨hc, hlong, hsurrogate⟩ := hrange c hc
    rw [if_neg (by omega), if_neg (by omega), if_pos hb.2]
    exact encode_three hb hc (contains_iff.mp hd) hlong hsurrogate
  · obtain ⟨c, _, rfl, hc, hrest⟩ := fits_cons.mp hfit
    obtain ⟨d, _, rfl, hd, hrest⟩ := fits_cons.mp hrest
    obtain ⟨e, _, rfl, he, hrest⟩ := fits_cons.mp hrest
    obtain rfl := fits_nil.mp hrest
    obtain ⟨hc, hlong, hlarge⟩ := hrange c hc
    rw [if_neg (by omega), if_neg (by omega), if_neg (by omega)]
    exact encode_four hb hc (contains_iff.mp hd) (contains_iff.mp he) hlong hlarge

/-- The second byte of a character of three bytes lies where the table wants it: it is bounded
further behind `0xE0` and `0xED`. -/
private theorem followers_three {n : Nat} (low : 0x7FF < n) (high : n ≤ 0xFFFF)
    (h : n < 0xD800 ∨ 0xDFFF < n) :
    ∃ range, followers (UInt8.ofNat (n / 4096 % 16 + 224)) = some [range, continuation] ∧
      range.contains (UInt8.ofNat (n / 64 % 64 + 128)) = true := by
  rw [followers_ofNat _ (by omega), if_neg (by omega), if_neg (by omega), if_neg (by omega)]
  -- The first sixteenth, where a shorter sequence would do.
  split
  · refine ⟨_, rfl, (contains_ofNat (by omega)).mpr ?_⟩
    simp only [UInt8.reduceToNat]
    omega
  -- The sixteenth that has the surrogates in its upper half.
  split
  · refine ⟨_, rfl, (contains_ofNat (by omega)).mpr ?_⟩
    simp only [UInt8.reduceToNat]
    omega
  · rw [if_pos (by omega)]
    exact ⟨_, rfl, continuation_contains _⟩

/-- The second byte of a character of four bytes lies where the table wants it: it is bounded
further behind `0xF0` and `0xF4`. -/
private theorem followers_four {n : Nat} (low : 0xFFFF < n) (high : n < 0x110000) :
    ∃ range, followers (UInt8.ofNat (n / 262144 % 8 + 240))
        = some [range, continuation, continuation] ∧
      range.contains (UInt8.ofNat (n / 4096 % 64 + 128)) = true := by
  rw [followers_ofNat _ (by omega), if_neg (by omega), if_neg (by omega), if_neg (by omega),
    if_neg (by omega), if_neg (by omega), if_neg (by omega)]
  -- The first part, where a shorter sequence would do.
  split
  · refine ⟨_, rfl, (contains_ofNat (by omega)).mpr ?_⟩
    simp only [UInt8.reduceToNat]
    omega
  split
  · exact ⟨_, rfl, continuation_contains _⟩
  · -- The last part, which ends with the last code point.
    rw [if_pos (by omega)]
    refine ⟨_, rfl, (contains_ofNat (by omega)).mpr ?_⟩
    simp only [UInt8.reduceToNat]
    omega

/-- Every character is written as a lead byte with bytes in the ranges that follow it, and they
denote it. This is the other direction of `encode_assemble`: whatever the encoder writes, a scan
reads. -/
theorem exists_fits_encodeChar (c : Char) :
    ∃ b ranges bytes, String.utf8EncodeChar c = b :: bytes ∧ followers b = some ranges ∧
      fits ranges bytes = true ∧ Char.ofNat (assemble (leadBits b) bytes) = c := by
  have hvalid : c.toNat < 0xD800 ∨ 0xDFFF < c.toNat ∧ c.toNat < 0x110000 := c.valid
  have key : ∀ n, n = c.toNat → Char.ofNat n = c := fun n h => by rw [h, Char.ofNat_toNat]
  -- One case for each number of bytes, by the size of the code point.
  unfold String.utf8EncodeChar
  simp only [show c.val.toNat = c.toNat from rfl]
  split
  · refine ⟨_, [], _, rfl, ?_, rfl, key _ ?_⟩
    · rw [followers_ofNat _ (by omega), if_pos (by omega)]
    · simp only [assemble, List.foldl_nil]
      rw [leadBits_ofNat _ (by omega), if_pos (by omega)]
  split
  · refine ⟨_, [continuation], _, rfl, ?_, ?_, key _ ?_⟩
    · rw [followers_ofNat _ (by omega), if_neg (by omega), if_neg (by omega),
        if_pos (by omega)]
    · simp only [fits, continuation_contains, Bool.and_self]
    · simp only [assemble, List.foldl_cons, List.foldl_nil, continuation_bits]
      rw [leadBits_ofNat _ (by omega), if_neg (by omega), if_pos (by omega)]
      omega
  split
  · -- With three and four bytes the range of the second byte depends on the lead byte: it excludes
    -- what fewer bytes can write, the surrogates, and what is above the last code point.
    obtain ⟨range, hfollow, hrange⟩ :=
      followers_three (n := c.toNat) (by omega) (by omega) (by omega)
    refine ⟨_, _, _, rfl, hfollow, ?_, key _ ?_⟩
    · simp only [fits, hrange, continuation_contains, Bool.and_self]
    · simp only [assemble, List.foldl_cons, List.foldl_nil, continuation_bits]
      rw [leadBits_ofNat _ (by omega), if_neg (by omega), if_neg (by omega),
        if_pos (by omega)]
      omega
  · obtain ⟨range, hfollow, hrange⟩ := followers_four (n := c.toNat) (by omega) (by omega)
    refine ⟨_, _, _, rfl, hfollow, ?_, key _ ?_⟩
    · simp only [fits, hrange, continuation_contains, Bool.and_self]
    · simp only [assemble, List.foldl_cons, List.foldl_nil, continuation_bits]
      rw [leadBits_ofNat _ (by omega), if_neg (by omega), if_neg (by omega),
        if_neg (by omega)]
      omega

/-! ### Scanning, stopped and taken up again -/

/-- A scan at the end of its bytes: it is done, or a sequence is under way that lacks its end. -/
theorem scanFrom_nil (current : Option Partial) (read : List Char) :
    scanFrom current read [] =
      (read.reverse,
        match current with
        | none => .done
        | some p => .unfinished p.bytes) := rfl

/-- A scan of one more byte. It begins a sequence or is a character by itself, or it continues the
sequence under way; if it does neither, the scan stops. The proofs below cite this and do not unfold
`scanFrom`. -/
theorem scanFrom_cons (current : Option Partial) (read : List Char) (b : UInt8)
    (rest : List UInt8) :
    scanFrom current read (b :: rest) =
      match current with
      | none =>
        match followers b with
        | none => (read.reverse, .invalid [b] rest)
        | some [] => scanFrom none (Char.ofNat (leadBits b) :: read) rest
        | some (next :: later) => scanFrom (some ⟨[b], leadBits b, next, later⟩) read rest
      | some p =>
        if p.next.contains b then
          match p.later with
          | [] => scanFrom none (Char.ofNat (64 * p.value + b.toNat % 64) :: read) rest
          | next :: later =>
            scanFrom (some ⟨p.bytes ++ [b], 64 * p.value + b.toNat % 64, next, later⟩) read rest
        else (read.reverse, .invalid p.bytes (b :: rest)) := rfl

/-- The bytes that a scan has not read as text. -/
def Stop.left : Stop → List UInt8
  | .done => []
  | .unfinished bytes => bytes
  | .invalid bytes rest => bytes ++ rest

/-- The bytes behind a lead byte are none that a sequence could begin with. So an unfinished
sequence is never ended by the beginning of another one and taken for part of it. -/
theorem continues_of_followers {b : UInt8} {ranges : List ByteRange}
    (h : followers b = some ranges) {r : ByteRange} (hr : r ∈ ranges) {c : UInt8}
    (hc : r.contains c = true) : 0x80 ≤ c.toNat ∧ c.toNat ≤ 0xBF := by
  have hcontinuation : continuation.contains c = true → 0x80 ≤ c.toNat ∧ c.toNat ≤ 0xBF := by
    intro hc
    have hrange := contains_iff.mp hc
    simp only [UInt8.reduceToNat] at hrange
    omega
  rcases followers_cases h with ⟨rfl, -⟩ | ⟨rfl, -⟩ | ⟨range, rfl, -, hrange⟩ |
    ⟨range, rfl, -, hrange⟩
  · exact nomatch hr
  · obtain rfl := List.mem_singleton.mp hr
    exact hcontinuation hc
  -- The second byte has a range of its own, the others have the general one.
  · rcases List.mem_cons.mp hr with rfl | hr
    · have hbounds := (hrange c hc).1
      omega
    · obtain rfl := List.mem_singleton.mp hr
      exact hcontinuation hc
  · rcases List.mem_cons.mp hr with rfl | hr
    · have hbounds := (hrange c hc).1
      omega
    · obtain rfl : r = continuation := by
        rcases List.mem_cons.mp hr with h | h
        · exact h
        · exact List.mem_singleton.mp h
      exact hcontinuation hc

/-- A sequence under way that a scan can have come to. Reading its bytes from the
start leads to it, whatever completes it makes a character of it, and no byte that
begins a sequence continues it. -/
structure Partial.Begun (p : Partial) : Prop where
  resumes : ∀ read rest, scanFrom none read (p.bytes ++ rest) = scanFrom (some p) read rest
  completes : ∀ bytes, fits (p.next :: p.later) bytes = true →
    String.utf8EncodeChar (Char.ofNat (assemble p.value bytes)) = p.bytes ++ bytes
  continues : ∀ r ∈ p.next :: p.later, ∀ c : UInt8, r.contains c = true →
    0x80 ≤ c.toNat ∧ c.toNat < 0xC2

/-- A lead byte begins a sequence. It is the first of two lemmas that make every sequence under way
one that is `Begun`. -/
theorem Partial.Begun.lead {b : UInt8} {next : ByteRange} {later : List ByteRange}
    (h : followers b = some (next :: later)) :
    Partial.Begun ⟨[b], leadBits b, next, later⟩ where
  continues _ hr _ hc := by
    have hbounds := continues_of_followers h hr hc
    omega
  resumes read rest := by
    show scanFrom none read (b :: rest) = _
    simp only [scanFrom_cons, h]
  completes bytes hfit := encode_assemble h hfit

/-- A byte in its range continues a sequence: it is one byte longer, and one range fewer is left.
The three facts about a sequence that has begun are carried over to the longer one. -/
theorem Partial.Begun.more {p : Partial} (hp : p.Begun) {b : UInt8} {next : ByteRange}
    {later : List ByteRange} (hb : p.next.contains b = true) (hlater : p.later = next :: later) :
    Partial.Begun ⟨p.bytes ++ [b], 64 * p.value + b.toNat % 64, next, later⟩ where
  continues r hr := hp.continues r (List.mem_cons_of_mem _ (hlater ▸ hr))
  resumes read rest := by
    show scanFrom none read (p.bytes ++ [b] ++ rest) = _
    rw [List.append_assoc, List.singleton_append, hp.resumes]
    simp only [scanFrom_cons, hb, hlater, if_true]
  completes bytes hfit := by
    -- What completes the longer sequence completes the shorter one with this byte in front.
    have h := hp.completes (b :: bytes) (by rw [hlater, fits, hb, hfit]; rfl)
    simp only [assemble, List.foldl_cons] at h
    rw [List.append_assoc, List.singleton_append]
    exact h

/-- The last byte of a sequence makes it a character, the one that the encoder writes with these
bytes. -/
theorem Partial.Begun.last {p : Partial} (hp : p.Begun) {b : UInt8}
    (hb : p.next.contains b = true) (hlater : p.later = []) :
    String.utf8EncodeChar (Char.ofNat (64 * p.value + b.toNat % 64)) = p.bytes ++ [b] := by
  have h := hp.completes [b] (by rw [hlater, fits, hb]; rfl)
  simp only [assemble, List.foldl_cons, List.foldl_nil] at h
  exact h

/-- A sequence under way, if there is one, that a scan can have come to. -/
def Begun? (current : Option Partial) : Prop := ∀ p, current = some p → p.Begun

/-- A scan that begins has no sequence under way. -/
theorem begun?_none : Begun? none := fun _ h => nomatch h

/-- The state of a scan in the middle of a sequence, from what is known of that sequence. -/
theorem begun?_some {p : Partial} (h : p.Begun) : Begun? (some p) := fun _ e => by
  cases e
  exact h

/-- What was read before a scan stands in front of what the scan reads, and does not influence it.
So it may be left out of most statements. -/
theorem scanFrom_read (current : Option Partial) (read : List Char) (bytes : List UInt8) :
    scanFrom current read bytes
      = (read.reverse ++ (scanFrom current [] bytes).1, (scanFrom current [] bytes).2) := by
  induction bytes generalizing current read with
  | nil => simp [scanFrom_nil]
  | cons b rest ih =>
    -- The scan of the rest has one character more in front, which the hypothesis moves out.
    simp only [scanFrom_cons]
    split
    · split
      · simp
      · rw [ih none (_ :: read), ih none [_]]
        simp
      · exact ih _ read
    · split
      · split
        · rw [ih none (_ :: read), ih none [_]]
          simp
        · exact ih _ read
      · simp

/-- A scan of `a ++ b` is a scan of `a`, continued. The induction is on `a`; what
`a` leaves unfinished is carried as the sequence under way, and `resumes` turns it
back into bytes at the end. -/
theorem scanFrom_append {current : Option Partial} (hcurrent : Begun? current)
    (read : List Char) (a b : List UInt8) :
    scanFrom current read (a ++ b) =
      match scanFrom current read a with
      | (s, .invalid bad rest) => (s, .invalid bad (rest ++ b))
      | (s, stop) => scanFrom none s.reverse (stop.left ++ b) := by
  induction a generalizing current read with
  | nil =>
    cases current with
    | none => simp [scanFrom_nil, Stop.left]
    | some p =>
      show scanFrom (some p) read b = scanFrom none read.reverse.reverse (p.bytes ++ b)
      -- The first part ends in the middle of a sequence. To read its bytes again in front of the
      -- second part leads to the same state.
      rw [List.reverse_reverse, (hcurrent p rfl).resumes]
  | cons x a ih =>
    simp only [List.cons_append, scanFrom_cons]
    cases current with
    | none =>
      cases hx : followers x with
      | none => rfl
      | some ranges =>
        -- A character of one byte leaves nothing under way, a longer one begins a sequence.
        cases ranges with
        | nil => exact ih begun?_none _
        | cons next later => exact ih (begun?_some (.lead hx)) _
    | some p =>
      simp only
      split
      · rename_i hcontains
        cases hlater : p.later with
        | nil => exact ih begun?_none _
        | cons next later => exact ih (begun?_some ((hcurrent p rfl).more hcontains hlater)) _
      · -- A byte out of range stops the scan, whatever stands behind.
        rfl

/-- No byte is lost: what a scan has read, written again, and what it has left are
the bytes that it was given. -/
theorem encode_append_left {current : Option Partial} (hcurrent : Begun? current)
    (read : List Char) (bytes : List UInt8) :
    encode (scanFrom current read bytes).1 ++ (scanFrom current read bytes).2.left
      = encode read.reverse ++ ((current.map Partial.bytes).getD [] ++ bytes) := by
  induction bytes generalizing current read with
  | nil => cases current <;> simp [scanFrom_nil, Stop.left]
  | cons x rest ih =>
    simp only [scanFrom_cons]
    cases current with
    | none =>
      simp only
      cases hx : followers x with
      | none => simp [Stop.left]
      | some ranges =>
        cases ranges with
        | nil =>
          -- The byte is read as a character, and written again it is that byte.
          have hchar := encode_assemble hx (fits_nil.mpr rfl)
          simp only [assemble, List.foldl_nil] at hchar
          simp only [ih begun?_none, List.reverse_cons, encode_append, encode_cons, hchar]
          simp
        | cons next later =>
          simp only [ih (begun?_some (.lead hx))]
          simp
    | some p =>
      simp only
      split
      · rename_i hcontains
        cases hlater : p.later with
        | nil =>
          -- The sequence is complete, and written again it is its bytes.
          have hchar := (hcurrent p rfl).last hcontains hlater
          simp only [ih begun?_none, List.reverse_cons, encode_append, encode_cons, hchar]
          simp
        | cons next later =>
          -- Nothing is read yet; the byte is among those of the sequence under way.
          simp only [ih (begun?_some ((hcurrent p rfl).more hcontains hlater))]
          simp
      · simp [Stop.left]

/-- A sequence that a scan leaves unfinished is one that a scan can have come to. The induction
follows the scan; `Begun` is what each step keeps. -/
theorem exists_begun_of_unfinished {current : Option Partial} (hcurrent : Begun? current)
    {read s : List Char} {bytes tail : List UInt8}
    (h : scanFrom current read bytes = (s, .unfinished tail)) :
    ∃ p : Partial, p.Begun ∧ p.bytes = tail := by
  induction bytes generalizing current read with
  | nil =>
    cases current with
    | none => simp [scanFrom_nil] at h
    | some p =>
      simp only [scanFrom_nil, Prod.mk.injEq, Stop.unfinished.injEq] at h
      -- The scan ends here, and leaves what is under way.
      exact ⟨p, hcurrent p rfl, h.2⟩
  | cons x rest ih =>
    simp only [scanFrom_cons] at h
    cases current with
    | none =>
      cases hx : followers x with
      | none => simp [hx] at h
      | some ranges =>
        simp only [hx] at h
        cases ranges with
        | nil => exact ih begun?_none h
        -- Now something is under way, begun by this byte.
        | cons next later => exact ih (begun?_some (.lead hx)) h
    | some p =>
      simp only at h
      split at h
      · rename_i hcontains
        cases hlater : p.later with
        | nil =>
          simp only [hlater] at h
          exact ih begun?_none h
        | cons next later =>
          simp only [hlater] at h
          exact ih (begun?_some ((hcurrent p rfl).more hcontains hlater)) h
      · -- A byte that does not fit makes the sequence invalid, not unfinished.
        simp at h

/-- An unfinished sequence stays as it is: scanned once more, it is unfinished again, and it is
never empty. A decoder that keeps it may look at it as often as it likes. -/
theorem scan_of_unfinished {bytes tail : List UInt8} {s : List Char}
    (h : scan bytes = (s, .unfinished tail)) : scan tail = ([], .unfinished tail) ∧ tail ≠ [] := by
  obtain ⟨p, hp, rfl⟩ := exists_begun_of_unfinished begun?_none h
  have hscan : scan p.bytes = ([], .unfinished p.bytes) := by
    have hresume := hp.resumes [] []
    rw [List.append_nil] at hresume
    exact hresume
  refine ⟨hscan, fun hnil => ?_⟩
  rw [hnil] at hscan
  exact nomatch hscan

/-! ### Scanning what was encoded -/

/-- Bytes that lie in the ranges of a sequence under way complete it. The induction is on the ranges
that are left. -/
theorem scanFrom_fits {later : List ByteRange} {p : Partial} (hlater : p.later = later)
    {bytes : List UInt8} (hfit : fits (p.next :: later) bytes = true) (read : List Char)
    (rest : List UInt8) :
    scanFrom (some p) read (bytes ++ rest)
      = scanFrom none (Char.ofNat (assemble p.value bytes) :: read) rest := by
  induction later generalizing p bytes with
  | nil =>
    -- The last range: its byte makes the sequence a character.
    obtain ⟨b, _, rfl, hb, hrest⟩ := fits_cons.mp hfit
    obtain rfl := fits_nil.mp hrest
    simp only [List.cons_append, List.nil_append, scanFrom_cons, hb, if_true, hlater]
    rfl
  | cons next later ih =>
    obtain ⟨b, bytes, rfl, hb, hrest⟩ := fits_cons.mp hfit
    simp only [List.cons_append, scanFrom_cons, hb, if_true, hlater]
    exact ih rfl hrest

/-- A character is read as it was written, whatever stands behind it. This is what reading back a
whole text is put together from. -/
theorem scanFrom_encodeChar (c : Char) (read : List Char) (rest : List UInt8) :
    scanFrom none read (String.utf8EncodeChar c ++ rest) = scanFrom none (c :: read) rest := by
  obtain ⟨b, ranges, bytes, hbytes, hfollow, hfit, hc⟩ := exists_fits_encodeChar c
  rw [hbytes, List.cons_append]
  simp only [scanFrom_cons, hfollow]
  -- A character of one byte is read at once; a longer one is begun by its first byte and completed
  -- by the others.
  cases ranges with
  | nil =>
    obtain rfl := fits_nil.mp hfit
    rw [← hc]
    rfl
  | cons next later =>
    rw [← hc]
    exact scanFrom_fits rfl hfit read rest

/-- A text in front of other bytes is read as it was written. Then the scan goes on behind it as if
it began there. -/
theorem scanFrom_encode (s read : List Char) (rest : List UInt8) :
    scanFrom none read (encode s ++ rest) = scanFrom none (s.reverse ++ read) rest := by
  induction s generalizing read with
  | nil => rfl
  | cons c s ih =>
    rw [encode_cons, List.append_assoc, scanFrom_encodeChar, ih, List.reverse_cons,
      List.append_assoc, List.singleton_append]

/-- A text is read back from its bytes, and nothing is left. -/
theorem scan_encode (s : List Char) : scan (encode s) = (s, .done) := by
  have h := scanFrom_encode s [] []
  rw [List.append_nil, List.append_nil] at h
  exact h.trans (by simp [scanFrom_nil])

/-- The bytes of a text, cut anywhere. Before the cut stand whole characters and
perhaps an unfinished one; that one and what comes after the cut are the rest of
the text. -/
theorem scan_of_append_eq_encode {a b : List UInt8} {s : List Char} (h : a ++ b = encode s) :
    ∃ t u stop, scan a = (t, stop) ∧ (∀ bad rest, stop ≠ .invalid bad rest) ∧ s = t ++ u ∧
      stop.left ++ b = encode u := by
  obtain ⟨t, stop, hscan⟩ : ∃ t stop, scan a = (t, stop) := ⟨_, _, rfl⟩
  have happend := scanFrom_append begun?_none [] a b
  rw [show scanFrom none [] (a ++ b) = (s, .done) from h ▸ scan_encode s,
    show scanFrom none [] a = (t, stop) from hscan] at happend
  have hconserve := encode_append_left begun?_none [] a
  rw [show scanFrom none [] a = (t, stop) from hscan] at hconserve
  -- The whole text is read to its end, so its first part has no invalid byte.
  have hvalid : ∀ bad rest, stop ≠ .invalid bad rest := by
    rintro bad rest rfl
    exact nomatch happend
  have hrest : (s, Stop.done) = scanFrom none t.reverse (stop.left ++ b) := by
    cases stop with
    | invalid bad rest => exact absurd rfl (hvalid bad rest)
    | done => exact happend
    | unfinished tail => exact happend
  rw [scanFrom_read, List.reverse_reverse] at hrest
  have hs : s = t ++ (scanFrom none [] (stop.left ++ b)).1 := congrArg Prod.fst hrest
  refine ⟨t, _, stop, hscan, hvalid, hs, ?_⟩
  have hbytes : encode t ++ (stop.left ++ b) = a ++ b := by
    rw [← List.append_assoc, hconserve]
    rfl
  -- Both sides begin with the bytes of `t`; what is behind them is the claim.
  rw [h, hs, encode_append] at hbytes
  exact List.append_cancel_left hbytes

end Utf8

/-- Bytes are read as a text exactly if they are its bytes. So an encoder and a decoder that are put
in a row do nothing, and no two byte strings are the same text. -/
theorem decode?_eq_some_iff {bytes : List UInt8} {s : List Char} :
    decode? bytes = some s ↔ bytes = encode s := by
  constructor
  · intro h
    cases hscan : Utf8.scan bytes with
    | mk t stop =>
      rw [decode?, hscan] at h
      cases stop with
      | done =>
        obtain rfl := Option.some.inj h
        -- A scan that is done has used every byte, so writing what it has read gives them back.
        have hbytes := Utf8.encode_append_left Utf8.begun?_none [] bytes
        rw [show Utf8.scanFrom none [] bytes = (t, .done) from hscan] at hbytes
        simpa [Utf8.Stop.left] using hbytes.symm
      | _ => simp at h
  · rintro rfl
    rw [decode?, Utf8.scan_encode]

end LanguageClient.Text
